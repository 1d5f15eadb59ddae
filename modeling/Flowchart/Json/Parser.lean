import Flowchart.Json.StringLiteral
import Flowchart.Value.Table

/-!
# Reading JSON

`Json.parse` reads a JSON text as a value. Besides the standard it accepts words for infinity and for no
number. A key that is given twice keeps its first place and takes the last value. The first fault from the
left is reported.

Each step of the functions below takes at least one character in every two calls, so twice the length of
the text bounds their depth. Lists and tables may be nested to any depth; a reader whose stack is limited gives
up on some texts that are read here.
-/

namespace Flowchart.Json

/-- The white space of JSON. -/
def isSpace (c : Char) : Bool := c == ' ' || c == '\t' || c == '\n' || c == '\r'

/-- `s` without white space at its start. -/
def skipSpace (s : List Char) : List Char := s.dropWhile isSpace

/-- The words that are values, each with its value. -/
def words : List (List Char × Value) :=
  [("null".toList, .null), ("true".toList, .bool true), ("false".toList, .bool false),
    ("NaN".toList, .float (0.0 / 0.0)), ("Infinity".toList, .float Decimal.infinity),
    ("-Infinity".toList, .float (-Decimal.infinity))]

/-- A word or a number, and what follows it. -/
def scalar (s : List Char) : Except LocalFault (Value × List Char) :=
  match words.find? (·.1.isPrefixOf s) with
  | some (word, v) => .ok (v, s.drop word.length)
  | none =>
    match numberPart? s with
    | none => .error (.at .value s.length)
    | some (t, rest) =>
      match t.toValue with
      | .ok v => .ok (v, rest)
      | .error count => .error (.tooManyDigits count)

/-- A property name with its colon, and what follows behind white space. -/
def propertyPart (s : List Char) : Except LocalFault (Text × List Char) :=
  match s with
  | '\x22' :: rest => do
    let (name, rest) ← stringPart s.length rest
    match skipSpace rest with
    | ':' :: rest => return (name, skipSpace rest)
    | rest => throw (.at .colon rest.length)
  | _ => .error (.at .propertyName s.length)

mutual

/-- A value at the start of `s`, and what follows it. -/
def valuePart : Nat → List Char → Except LocalFault (Value × List Char)
  | 0, s => .error (.at .value s.length)
  | bound + 1, s =>
    match s with
    | '\x22' :: rest => (stringPart s.length rest).map fun (t, rest) => (.text t, rest)
    | '[' :: rest =>
      match skipSpace rest with
      | ']' :: rest => .ok (.list [], rest)
      | rest => (itemsPart bound rest).map fun (items, rest) => (.list items, rest)
    | '\x7b' :: rest =>
      match skipSpace rest with
      | '\x7d' :: rest => .ok (.table [], rest)
      | rest => (entriesPart bound [] rest).map fun (t, rest) => (.table t, rest)
    | s => scalar s

/-- The items of a list up to its end, and what follows it. -/
def itemsPart : Nat → List Char → Except LocalFault (List Value × List Char)
  | 0, s => .error (.at .value s.length)
  | bound + 1, s => do
    let (v, rest) ← valuePart bound s
    match skipSpace rest with
    | ']' :: rest => return ([v], rest)
    | ',' :: rest =>
      let (vs, rest) ← itemsPart bound (skipSpace rest)
      return (v :: vs, rest)
    | rest => throw (.at .comma rest.length)

/-- The entries of a table up to its end, entered into `t`, and what follows it. -/
def entriesPart : Nat → Value.Table → List Char → Except LocalFault (Value.Table × List Char)
  | 0, _, s => .error (.at .value s.length)
  | bound + 1, t, s => do
    let (name, rest) ← propertyPart s
    let (v, rest) ← valuePart bound rest
    let t := t.insert (.text name) v
    match skipSpace rest with
    | '\x7d' :: rest => return (t, rest)
    | ',' :: rest => entriesPart bound t (skipSpace rest)
    | rest => throw (.at .comma rest.length)

end

/-- The value that a text consists of, with white space around it. -/
def document (s : List Char) : Except LocalFault Value :=
  if s.head? == some '\uFEFF' then .error (.at .byteOrderMark s.length)
  else do
    let (v, rest) ← valuePart (2 * s.length + 2) (skipSpace s)
    let rest := skipSpace rest
    if rest.isEmpty then return v else throw (.at .extraData rest.length)

/-- Reads a JSON text. -/
def parse (s : List Char) : Except Fault Value := (document s).mapError (·.within s)

end Flowchart.Json
