/-
# UTF-8, strict and lossy

File names, paths and file contents are bytes; entries, messages and
configuration values are text. This module reads the one as the other. A byte
sequence is first cut into pieces, each of them a character or a longest run of
bytes that could have begun one; the strict reading accepts only characters,
the lossy reading shows every broken piece as one U+FFFD.

Overlong forms, surrogates and values past U+10FFFF are excluded by the range
the second byte of a sequence may lie in, so no piece is judged twice.
-/

namespace CacheManifest

/-- What a file holds, or the spelling of a name or path. Nothing is promised
about the values. -/
abbrev Bytes := List UInt8

namespace Utf8

/-- A character, or bytes that stand for none. -/
inductive Piece where
  | char (c : Char)
  | broken (bytes : Bytes)
deriving DecidableEq, Repr

/-- A sequence that has begun: the bytes seen, the bits they carry, how many
bytes are still to come after the next one, and the range of the next one. -/
structure Pending where
  seen : Bytes
  bits : Nat
  further : Nat
  low : Nat
  high : Nat
deriving DecidableEq, Repr

/-- What a byte opens when no sequence is pending: a piece of its own, or a
sequence of two, three or four bytes. -/
def opening (byte : UInt8) : Piece ⊕ Pending :=
  let b := byte.toNat
  if b < 0x80 then .inl (.char (Char.ofNat b))
  else if b < 0xC2 then .inl (.broken [byte])
  else if b < 0xE0 then .inr ⟨[byte], b % 32, 0, 0x80, 0xBF⟩
  else if b = 0xE0 then .inr ⟨[byte], 0, 1, 0xA0, 0xBF⟩
  else if b = 0xED then .inr ⟨[byte], 13, 1, 0x80, 0x9F⟩
  else if b < 0xF0 then .inr ⟨[byte], b % 16, 1, 0x80, 0xBF⟩
  else if b = 0xF0 then .inr ⟨[byte], 0, 2, 0x90, 0xBF⟩
  else if b < 0xF4 then .inr ⟨[byte], b % 8, 2, 0x80, 0xBF⟩
  else if b = 0xF4 then .inr ⟨[byte], 4, 2, 0x80, 0x8F⟩
  else .inl (.broken [byte])

/-- The next byte of a pending sequence, when it lies in range: the character
it completes or the sequence carried on. -/
def Pending.continued (pending : Pending) (byte : UInt8) : Option (Piece ⊕ Pending) :=
  if pending.low ≤ byte.toNat ∧ byte.toNat ≤ pending.high then
    let bits := pending.bits * 64 + byte.toNat % 64
    match pending.further with
    | 0 => some (.inl (.char (Char.ofNat bits)))
    | further + 1 => some (.inr ⟨pending.seen ++ [byte], bits, further, 0x80, 0xBF⟩)
  else none

/-- Cut bytes into pieces, a sequence possibly being under way. A byte that
does not continue it breaks it off and opens anew. -/
def piecesFrom : Option Pending → Bytes → List Piece
  | none, [] => []
  | some pending, [] => [.broken pending.seen]
  | none, byte :: rest =>
    match opening byte with
    | .inl piece => piece :: piecesFrom none rest
    | .inr pending => piecesFrom (some pending) rest
  | some pending, byte :: rest =>
    match pending.continued byte with
    | some (.inl piece) => piece :: piecesFrom none rest
    | some (.inr next) => piecesFrom (some next) rest
    | none =>
      .broken pending.seen ::
        match opening byte with
        | .inl piece => piece :: piecesFrom none rest
        | .inr next => piecesFrom (some next) rest

/-- The characters and broken runs of a byte sequence, in order. -/
def pieces (bytes : Bytes) : List Piece := piecesFrom none bytes

/-- The character that stands for a broken run. -/
def replacement : Char := '\uFFFD'

/-- A piece as it is shown. -/
def Piece.shown : Piece → Char
  | .char c => c
  | .broken _ => replacement

/-- A piece as a character, if it is one. -/
def Piece.char? : Piece → Option Char
  | .char c => some c
  | .broken _ => none

/-- The characters of the lossy reading. -/
def lossyChars (bytes : Bytes) : List Char := (pieces bytes).map Piece.shown

/-- The lossy reading: every broken run becomes one U+FFFD. -/
def decodeLossy (bytes : Bytes) : String := String.ofList (lossyChars bytes)

/-- The characters of well-formed bytes. -/
def chars? (bytes : Bytes) : Option (List Char) := (pieces bytes).mapM Piece.char?

/-- The strict reading: the text, if no piece is broken. -/
def decode? (bytes : Bytes) : Option String := (chars? bytes).map String.ofList

/-- The one to four bytes of a character. -/
def encodeChar (c : Char) : Bytes :=
  let v := c.toNat
  if v < 0x80 then [UInt8.ofNat v]
  else if v < 0x800 then [UInt8.ofNat (0xC0 + v / 64), UInt8.ofNat (0x80 + v % 64)]
  else if v < 0x10000 then
    [UInt8.ofNat (0xE0 + v / 4096), UInt8.ofNat (0x80 + v / 64 % 64), UInt8.ofNat (0x80 + v % 64)]
  else
    [UInt8.ofNat (0xF0 + v / 262144), UInt8.ofNat (0x80 + v / 4096 % 64),
      UInt8.ofNat (0x80 + v / 64 % 64), UInt8.ofNat (0x80 + v % 64)]

/-- The bytes of characters in a row. -/
def encodeChars (text : List Char) : Bytes := text.flatMap encodeChar

/-- The bytes of a text. -/
def encode (text : String) : Bytes := encodeChars text.toList

/-- How many bytes characters in a row take. -/
def width (text : List Char) : Nat := (encodeChars text).length

end Utf8

end CacheManifest
