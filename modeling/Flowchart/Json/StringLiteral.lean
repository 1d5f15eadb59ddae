import Flowchart.Json.Fault
import Flowchart.Text.Halves
import Flowchart.Text.Hex

/-!
# JSON strings

A string is read in two steps. First the escapes in it are replaced by the code points that they stand for; then
two surrogates that are the halves of one character are joined. A surrogate that stands alone is kept as it is.
-/

namespace Flowchart.Json

/-- The character that a letter behind a backslash stands for. -/
def shortEscape? : Char → Option Char
  | '\x22' => some '\x22'
  | '\\' => some '\\'
  | '/' => some '/'
  | 'b' => some '\x08'
  | 'f' => some '\x0c'
  | 'n' => some '\n'
  | 'r' => some '\r'
  | 't' => some '\t'
  | _ => none

/-- The number with the four hexadecimal digits. -/
def unitOf? (a b c d : Char) : Option Nat := do
  let a ← Text.hexValue? a
  let b ← Text.hexValue? b
  let c ← Text.hexValue? c
  let d ← Text.hexValue? d
  return ((a * 16 + b) * 16 + c) * 16 + d

/-- The code points up to the quotation mark that ends a string, and what follows it. The string starts at the
place `start`. -/
def unescaped (start : Nat) : List Char → Except LocalFault (List CodePoint × List Char)
  | [] => .error (.at .unterminatedText start)
  | '\x22' :: rest => .ok ([], rest)
  | ['\\'] => .error (.at .unterminatedText start)
  | '\\' :: 'u' :: a :: b :: c :: d :: rest =>
    match unitOf? a b c d with
    | some n =>
      if rest.isEmpty then .error (.at .unitEscape 5)
      else (unescaped start rest).map fun (cs, rest) => (.ofNat n :: cs, rest)
    | none => .error (.at .unitEscape (rest.length + 5))
  | '\\' :: 'u' :: rest => .error (.at .unitEscape (rest.length + 1))
  | '\\' :: e :: rest =>
    match shortEscape? e with
    | some c => (unescaped start rest).map fun (cs, rest) => (↑c :: cs, rest)
    | none => .error (.at .escape (rest.length + 2))
  | c :: rest =>
    if c.toNat < 0x20 then .error (.at .controlCharacter (rest.length + 1))
    else (unescaped start rest).map fun (cs, rest) => (↑c :: cs, rest)

/-- The string behind a quotation mark at the place `start`, and what follows it. -/
def stringPart (start : Nat) (s : List Char) : Except LocalFault (Text × List Char) :=
  (unescaped start s).map fun (cs, rest) => (Text.ofList (Text.joinHalves cs), rest)

end Flowchart.Json
