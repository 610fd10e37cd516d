/-
# Text in quotes

How a text is shown where its exact content matters: between double quotes,
with the quote and the backslash escaped, the usual names for tab, newline,
return and zero, and a number in braces for every other character that would
not show. Paths are quoted likewise; their broken bytes are shown in
hexadecimal, and an apostrophe is escaped as well.
-/

import CacheManifest.Path
import CacheManifest.Text.Unprintable

namespace CacheManifest

namespace Quoted

/-- A lower-case hexadecimal digit. -/
def hexDigit (value : Nat) : Char :=
  if value < 10 then Char.ofNat (48 + value) else Char.ofNat (87 + value)

/-- A number in lower-case hexadecimal, without leading zeros. The digits come
from the right, at most `places` of them. -/
def hexadecimal (places value : Nat) : List Char :=
  match places with
  | 0 => []
  | places + 1 =>
    if value < 16 then [hexDigit value]
    else hexadecimal places (value / 16) ++ [hexDigit (value % 16)]

/-- A character by its number. -/
def byNumber (c : Char) : List Char :=
  ['\\', 'u', '\x7b'] ++ hexadecimal 6 c.toNat ++ ['\x7d']

/-- A character inside quotes. -/
def character (c : Char) : List Char :=
  if c = '\x00' then ['\\', '0']
  else if c = '\t' then ['\\', 't']
  else if c = '\r' then ['\\', 'r']
  else if c = '\n' then ['\\', 'n']
  else if c = '"' ∨ c = '\\' then ['\\', c]
  else if isUnprintable c then byNumber c
  else [c]

/-- A byte that belongs to no character, in upper-case hexadecimal. -/
def byte (value : UInt8) : List Char :=
  ['\\', 'x', (hexDigit (value.toNat / 16)).toUpper, (hexDigit (value.toNat % 16)).toUpper]

/-- A piece of a path inside quotes. -/
def piece : Utf8.Piece → List Char
  | .char c => if c = '\'' then ['\\', c] else character c
  | .broken bytes => bytes.flatMap byte

/-- A text in quotes. -/
def text (content : String) : String :=
  String.ofList ('"' :: content.toList.flatMap character ++ ['"'])

/-- A path in quotes. -/
def path (path : Path) : String :=
  String.ofList ('"' :: (Utf8.pieces path.bytes).flatMap piece ++ ['"'])

/-- Quoted texts in brackets, separated by commas. -/
def list (quoted : List String) : String := "[" ++ ", ".intercalate quoted ++ "]"

end Quoted

end CacheManifest
