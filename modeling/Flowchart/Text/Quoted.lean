import Flowchart.Text.Hex
import Flowchart.Text.Printable

/-!
# Quoted text

A text is quoted with apostrophes, or with quotation marks when it holds an apostrophe and no quotation
mark. Inside, the mark in use and the backslash are escaped by a backslash, line feed, carriage return
and tab are written with a letter, and any other character that is not printable by its code point.
-/

namespace Flowchart.Text

/-- The mark around `s`. -/
def quoteMark (s : List CodePoint) : CodePoint :=
  if s.contains '\x27' && ! s.contains '\x22' then '\x22' else '\x27'

/-- How `c` is written between two of `mark`. -/
def quotedChar (mark c : CodePoint) : List CodePoint :=
  if c == mark || c == '\\' then ['\\', c]
  else if c == '\n' then ['\\', 'n']
  else if c == '\r' then ['\\', 'r']
  else if c == '\t' then ['\\', 't']
  else if isPrintable c then [c]
  else
    let escape :=
      if c.toNat ≤ 0xFF then 'x' :: hex 2 c.toNat
      else if c.toNat ≤ 0xFFFF then 'u' :: hex 4 c.toNat
      else 'U' :: hex 8 c.toNat
    '\\' :: escape.map CodePoint.ofChar

/-- `s` in quotes. -/
def quotedChars (s : List CodePoint) : List CodePoint :=
  let mark := quoteMark s
  mark :: s.flatMap (quotedChar mark) ++ [mark]

/-- `s` in quotes. -/
def quoted (s : Text) : Text := ofList (quotedChars s.toList)

end Flowchart.Text
