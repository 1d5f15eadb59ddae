import Flowchart.Text.Hex
import Flowchart.Text.Quoted

/-!
# Text as bytes

`decode` reads a sequence of bytes as UTF-8. A lead byte settles how many continuation bytes must follow
and which values the first of them may have; `Fault` says where the first bytes stand that are no
character, and why. `encode` gives the bytes of characters, and `encodeText` those of a text, unless there is a
surrogate in it.
-/

namespace Flowchart.Text.Utf8

/-- Why bytes are no character. -/
inductive Cause where
  /-- no character starts with this byte -/
  | start
  /-- the byte after them cannot continue the character -/
  | continuation
  /-- the input ends inside the character -/
  | ending
  deriving DecidableEq, Repr

/-- The first bytes of an input that are no character. -/
structure Fault where
  cause : Cause
  position : Nat
  /-- the number of bytes at fault -/
  count : Nat
  /-- the first of them -/
  lead : UInt8
  deriving DecidableEq, Repr

/-- The wording of a cause. -/
def Cause.text : Cause → String
  | .start => "invalid start byte"
  | .continuation => "invalid continuation byte"
  | .ending => "unexpected end of data"

/-- One byte at fault is shown, of several only the first and last position. -/
def Fault.message (f : Fault) : String :=
  let place :=
    if f.count == 1 then
      "byte 0x" ++ String.ofList (hex 2 f.lead.toNat) ++ " in position " ++ toString f.position
    else "bytes in position " ++ toString f.position ++ "-" ++ toString (f.position + f.count - 1)
  "'utf-8' codec can't decode " ++ place ++ ": " ++ f.cause.text

/-- The bits that a lead byte adds to the character, and the least and greatest value of each byte that
must follow it. -/
def lead? (b : UInt8) : Option (Nat × List (Nat × Nat)) :=
  let n := b.toNat
  let tail := (0x80, 0xBF)
  if n < 0x80 then some (n, [])
  else if n < 0xC2 then none
  else if n < 0xE0 then some (n - 0xC0, [tail])
  else if n < 0xF0 then
    let first := if n == 0xE0 then (0xA0, 0xBF) else if n == 0xED then (0x80, 0x9F) else tail
    some (n - 0xE0, [first, tail])
  else if n < 0xF5 then
    let first := if n == 0xF0 then (0x90, 0xBF) else if n == 0xF4 then (0x80, 0x8F) else tail
    some (n - 0xF0, [first, tail, tail])
  else none

/-- A character whose bytes have been read in part. -/
structure Begun where
  lead : UInt8
  /-- the bits that have been read -/
  code : Nat
  /-- the number of bytes that have been read -/
  count : Nat
  /-- the bounds of the bytes to come -/
  bounds : List (Nat × Nat)

/-- Decodes bytes of which the first stands at `position`, behind the characters `done`, latest first, and
behind the bytes of a character that has been begun. -/
def decodeFrom (position : Nat) (done : List Char) :
    Option Begun → List UInt8 → Except Fault (List Char)
  | none, [] => .ok done.reverse
  | some c, [] => .error ⟨.ending, position - c.count, c.count, c.lead⟩
  | none, b :: bytes =>
    match lead? b with
    | none => .error ⟨.start, position, 1, b⟩
    | some (code, []) => decodeFrom (position + 1) (Char.ofNat code :: done) none bytes
    | some (code, bounds) => decodeFrom (position + 1) done (some ⟨b, code, 1, bounds⟩) bytes
  | some c, b :: bytes =>
    let fits := c.bounds.head?.any fun (low, high) => low ≤ b.toNat && b.toNat ≤ high
    let code := c.code * 64 + (b.toNat - 0x80)
    if ! fits then .error ⟨.continuation, position - c.count, c.count, c.lead⟩
    else if c.bounds.length == 1 then
      decodeFrom (position + 1) (Char.ofNat code :: done) none bytes
    else
      decodeFrom (position + 1) done (some ⟨c.lead, code, c.count + 1, c.bounds.tail⟩) bytes

/-- The characters of a sequence of bytes. -/
def decode (bytes : List UInt8) : Except Fault (List Char) := decodeFrom 0 [] none bytes

/-- The bytes of some characters. -/
def encode (s : List Char) : List UInt8 := s.flatMap String.utf8EncodeChar

/-! ## Surrogates -/

/-- The first surrogates of a text, which have no bytes. -/
structure Unencodable where
  position : Nat
  /-- the surrogates that stand one behind the other -/
  surrogates : List CodePoint
  deriving DecidableEq, Repr

/-- One surrogate is shown, of several only the first and last position. -/
def Unencodable.message (u : Unencodable) : Text :=
  let place :=
    match u.surrogates with
    | [c] => "character " ++ quoted (.singleton c) ++ " in position " ++ toString u.position
    | cs => "characters in position " ++ toString u.position ++ "-" ++ toString (u.position + cs.length - 1)
  "'utf-8' codec can't encode " ++ place ++ ": surrogates not allowed"

/-- The bytes of a text. -/
def encodeText (s : Text) : Except Unencodable (List UInt8) :=
  match s.chars? with
  | some cs => .ok (encode cs)
  | none =>
    let rest := s.toList.dropWhile (! ·.isSurrogate)
    .error ⟨s.toList.length - rest.length, rest.takeWhile CodePoint.isSurrogate⟩

end Flowchart.Text.Utf8
