/-
# Reading the scalars of a JSON text

Strings, literals and numbers, each read from the front of a text together
with what is left after it. A string is given by its content, with every
escape replaced; a `\u` escape takes four bytes, and two of them together
spell a character past U+FFFF.

A number takes as many digits as a 64-bit word holds. Digits past those of the
whole part count as powers of ten, digits past those of the fraction do not
count at all.
-/

import CacheManifest.Json.Fault
import CacheManifest.Decimal.Shortest
import CacheManifest.Text.Quoted

namespace CacheManifest

namespace Json

/-- What a reader makes of the front of a text: a value and the rest, or a
fault. -/
abbrev Reader (Cause : Type) (α : Type) := List Char → Except (Fault Cause) (α × List Char)

/-- The blanks between tokens. -/
def isBlank (c : Char) : Bool := c == ' ' || c == '\n' || c == '\t' || c == '\r'

/-- A text without the blanks in front. -/
def skipBlanks (text : List Char) : List Char := text.dropWhile isBlank

/-! ## Strings -/

/-- The value of a hexadecimal digit. -/
def hexValue? (c : Char) : Option Nat :=
  if '0' ≤ c ∧ c ≤ '9' then some (c.toNat - 48)
  else if 'a' ≤ c ∧ c ≤ 'f' then some (c.toNat - 87)
  else if 'A' ≤ c ∧ c ≤ 'F' then some (c.toNat - 55)
  else none

/-- The number that four hexadecimal digits spell. -/
def fourDigits? : List Char → Option Nat
  | a :: b :: c :: d :: _ =>
    match hexValue? a, hexValue? b, hexValue? c, hexValue? d with
    | some a, some b, some c, some d => some (((a * 16 + b) * 16 + c) * 16 + d)
    | _, _, _, _ => none
  | _ => none

/-- The code unit after `\u`. -/
def codeUnit (text : List Char) : Except (Fault SyntaxError) Nat :=
  if Utf8.width text < 4 then .error (.atEnd .endOfString)
  else
    match fourDigits? text with
    | some unit => .ok unit
    | none => .error ⟨.invalidEscape, Utf8.width text - 4⟩

/-- The first half of a pair of code units. -/
def isLeading (unit : Nat) : Bool := 0xD800 ≤ unit && unit ≤ 0xDBFF

/-- The second half of a pair of code units. -/
def isTrailing (unit : Nat) : Bool := 0xDC00 ≤ unit && unit ≤ 0xDFFF

/-- The character that a pair of code units spells. -/
def pairValue (leading trailing : Nat) : Char :=
  Char.ofNat ((leading - 0xD800) * 1024 + (trailing - 0xDC00) + 0x10000)

/-- The second code unit of a pair, its own `\u` included. -/
def trailingUnit (text : List Char) : Except (Fault SyntaxError) Nat :=
  match text with
  | [] => .error (.atEnd .endOfString)
  | '\\' :: [] => .error (.atEnd .endOfString)
  | '\\' :: 'u' :: digits =>
    match codeUnit digits with
    | .error fault => .error fault
    | .ok unit =>
      if isTrailing unit then .ok unit else .error (.before .loneSurrogate (digits.drop 4))
  | '\\' :: other => .error (.at .endOfEscape other)
  | other => .error (.at .endOfEscape other)

/-- What the digits after `\u` spell, with the number of characters that the
escape takes after its backslash. -/
def unicodeEscape (digits : List Char) : Except (Fault SyntaxError) (Char × Nat) :=
  match codeUnit digits with
  | .error fault => .error fault
  | .ok unit =>
    let rest := digits.drop 4
    if isTrailing unit then .error (.before .loneSurrogate rest)
    else if isLeading unit then
      match trailingUnit rest with
      | .error fault => .error fault
      | .ok second => .ok (pairValue unit second, 11)
    else .ok (Char.ofNat unit, 5)

/-- The character of an escape of one letter. -/
def letterEscape? (c : Char) : Option Char :=
  if c = '"' ∨ c = '\\' ∨ c = '/' then some c
  else if c = 'b' then some '\x08'
  else if c = 'f' then some '\x0c'
  else if c = 'n' then some '\n'
  else if c = 'r' then some '\r'
  else if c = 't' then some '\t'
  else none

/-- What stands after a backslash, with the number of characters it takes. -/
def escape (text : List Char) : Except (Fault SyntaxError) (Char × Nat) :=
  match text with
  | [] => .error (.atEnd .endOfString)
  | c :: rest =>
    if c = 'u' then unicodeEscape rest
    else
      match letterEscape? c with
      | some value => .ok (value, 1)
      | none => .error (.at .invalidEscape text)

/-- Put a character in front of what was read. -/
def prepend (c : Char) :
    Except (Fault SyntaxError) (List Char × List Char) →
      Except (Fault SyntaxError) (List Char × List Char)
  | .ok (content, rest) => .ok (c :: content, rest)
  | .error fault => .error fault

/-- The content of a string up to its closing quote. The first `skip`
characters belong to an escape that has been read. -/
def stringFrom : Nat → Reader SyntaxError (List Char)
  | _, [] => .error (.atEnd .endOfString)
  | skip + 1, _ :: rest => stringFrom skip rest
  | 0, c :: rest =>
    if c = '"' then .ok ([], rest)
    else if c = '\\' then
      match escape rest with
      | .error fault => .error fault
      | .ok (value, length) => prepend value (stringFrom length rest)
    else if c.toNat < 32 then .error (.before .controlCharacter rest)
    else prepend c (stringFrom 0 rest)

/-- The content of a string, its opening quote being read. -/
def readString (text : List Char) : Except (Fault SyntaxError) (String × List Char) :=
  match stringFrom 0 text with
  | .ok (content, rest) => .ok (String.ofList content, rest)
  | .error fault => .error fault

/-! ## Literals and numbers -/

/-- Read the letters of a literal. -/
def readLiteral : List Char → Reader SyntaxError Unit
  | [], text => .ok ((), text)
  | _ :: _, [] => .error (.atEnd .endOfValue)
  | expected :: others, c :: rest =>
    if c = expected then readLiteral others rest else .error (.at .expectedLiteral (c :: rest))

/-- What a value turned out to be, where something else was wanted. -/
inductive Found where
  | null
  | boolean (value : Bool)
  | integer (value : Int)
  | decimal (negative : Bool) (value : Binary64)
  | string (content : String)
  | sequence
  | mapping
deriving DecidableEq, Repr

/-- A value as an error names it. -/
def Found.message : Found → String
  | .null => "null"
  | .boolean value => "boolean `" ++ (if value then "true" else "false") ++ "`"
  | .integer value => "integer `" ++ toString value ++ "`"
  | .decimal negative value =>
    "floating point `" ++ (if negative then "-" else "") ++
      String.ofList (Shortest.text value) ++ "`"
  | .string content => "string " ++ Quoted.text content
  | .sequence => "sequence"
  | .mapping => "map"

/-- Digits taken so far, the power of ten they are multiplied by, and whether
the next digit may still be taken. -/
structure Significand where
  digits : Nat
  exponent : Int
  fits : Bool
deriving DecidableEq, Repr

namespace Significand

def empty : Significand := ⟨0, 0, true⟩

/-- Whether one more digit leaves the digits within a 64-bit word. -/
def admits (significand : Significand) (c : Char) : Bool :=
  significand.fits && significand.digits * 10 + (c.toNat - 48) < Nat.pow 2 64

/-- One more digit of the whole part. -/
def whole (significand : Significand) (c : Char) : Significand :=
  if significand.admits c then
    { significand with digits := significand.digits * 10 + (c.toNat - 48) }
  else { significand with exponent := significand.exponent + 1, fits := false }

/-- One more digit of the fraction. -/
def fraction (significand : Significand) (c : Char) : Significand :=
  if significand.admits c then
    { significand with
      digits := significand.digits * 10 + (c.toNat - 48)
      exponent := significand.exponent - 1 }
  else { significand with fits := false }

end Significand

/-- The number that digits and an exponent spell. -/
def decimalValue (negative : Bool) (significand : Significand) (exponent : Int) :
    Reader SyntaxError Found := fun rest =>
  match Binary64.ofDecimal? significand.digits (significand.exponent + exponent) with
  | some value => .ok (.decimal negative value, rest)
  | none => .error (.before .numberOutOfRange rest)

/-- The greatest exponent that is read to its end. -/
def exponentLimit : Nat := Nat.pow 2 31 - 1

/-- The digits of an exponent: their value and what is left, or nothing and
what is left after the digit that passed the limit. -/
def exponentDigits : Nat → List Char → Option Nat × List Char
  | value, [] => (some value, [])
  | value, c :: rest =>
    if c.isDigit then
      let next := value * 10 + (c.toNat - 48)
      if next > exponentLimit then (none, rest) else exponentDigits next rest
    else (some value, c :: rest)

/-- The exponent of a number, its letter being read. An exponent past the limit
leaves zero, or puts a number out of range at the digit that passes it. -/
def exponentPart (negative : Bool) (significand : Significand) : Reader SyntaxError Found :=
  fun text =>
    let signed : Bool × List Char :=
      match text with
      | '+' :: rest => (false, rest)
      | '-' :: rest => (true, rest)
      | rest => (false, rest)
    match signed.2 with
    | [] => .error (.atEnd .endOfValue)
    | c :: rest =>
      if c.isDigit then
        match exponentDigits 0 (c :: rest) with
        | (some value, left) =>
          decimalValue negative significand (if signed.1 then -(value : Int) else value) left
        | (none, left) =>
          if significand.digits ≠ 0 ∧ signed.1 = false then
            .error (.before .numberOutOfRange left)
          else .ok (.decimal negative Binary64.zero, left.dropWhile Char.isDigit)
      else .error (.at .invalidNumber (c :: rest))

/-- The fraction of a number, its point being read. -/
def fractionPart (negative : Bool) (significand : Significand) : Reader SyntaxError Found :=
  fun text =>
    match text with
    | [] => .error (.atEnd .endOfValue)
    | c :: _ =>
      if c.isDigit then
        let taken := (text.takeWhile Char.isDigit).foldl Significand.fraction
          { significand with fits := true }
        match text.dropWhile Char.isDigit with
        | 'e' :: rest => exponentPart negative taken rest
        | 'E' :: rest => exponentPart negative taken rest
        | rest => decimalValue negative taken 0 rest
      else .error (.at .invalidNumber text)

/-- A number without fraction and exponent. It is an integer if a signed or an
unsigned 64-bit word holds it; a negative zero is none. -/
def wholeNumber (negative : Bool) (significand : Significand) : Reader SyntaxError Found :=
  fun rest =>
    if !significand.fits then decimalValue negative significand 0 rest
    else if !negative then .ok (.integer significand.digits, rest)
    else if 0 < significand.digits ∧ significand.digits ≤ Nat.pow 2 63 then
      .ok (.integer (-(significand.digits : Int)), rest)
    else .ok (.decimal true (Binary64.ofNat significand.digits), rest)

/-- What may follow the whole part of a number. -/
def afterWhole (negative : Bool) (significand : Significand) : Reader SyntaxError Found :=
  fun text =>
    match text with
    | '.' :: rest => fractionPart negative significand rest
    | 'e' :: rest => exponentPart negative significand rest
    | 'E' :: rest => exponentPart negative significand rest
    | rest => wholeNumber negative significand rest

/-- A number, its minus sign being read. A leading zero stands alone. -/
def readNumber (negative : Bool) : Reader SyntaxError Found := fun text =>
  match text with
  | [] => .error (.atEnd .endOfValue)
  | c :: rest =>
    if c = '0' then
      match rest with
      | next :: _ =>
        if next.isDigit then .error (.at .invalidNumber rest)
        else afterWhole negative .empty rest
      | [] => afterWhole negative .empty rest
    else if c.isDigit then
      afterWhole negative ((text.takeWhile Char.isDigit).foldl Significand.whole .empty)
        (text.dropWhile Char.isDigit)
    else .error (.at .invalidNumber text)

/-- What stands at the front of a text where something else was wanted.
Scalars are read to their end; a list or an object is only recognised. -/
def found : Reader SyntaxError Found := fun text =>
  match text with
  | [] => .error (.atEnd .endOfValue)
  | c :: rest =>
    if c = 'n' then (readLiteral ['u', 'l', 'l'] rest).map fun read => (.null, read.2)
    else if c = 't' then (readLiteral ['r', 'u', 'e'] rest).map fun read => (.boolean true, read.2)
    else if c = 'f' then
      (readLiteral ['a', 'l', 's', 'e'] rest).map fun read => (.boolean false, read.2)
    else if c = '-' then readNumber true rest
    else if c.isDigit then readNumber false text
    else if c = '"' then (readString rest).map fun read => (.string read.1, read.2)
    else if c = '[' then .ok (.sequence, text)
    else if c = '\x7b' then .ok (.mapping, text)
    else .error (.at .expectedValue text)

end Json

end CacheManifest
