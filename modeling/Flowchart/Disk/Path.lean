/-!
# Paths

A path is a row of names with slashes between them; empty names are passed over, so `a//b` and `a/b` are one
path. A dot is the name of a directory in itself, two dots are the name of the directory above.
-/

namespace Flowchart.Path

/-- The names that a path consists of. -/
def names (path : String) : List String :=
  ((path.toList.splitOn '/').map String.ofList).filter (· != "")

/-- Whether a path ends in a slash. Such a path can lead to a directory only. -/
def endsInSlash (path : String) : Bool := path.toList.getLast? == some '/'

/-- The names to look up one after the other; a slash at the end stands for a dot. -/
def steps (path : String) : List String :=
  if endsInSlash path then names path ++ ["."] else names path

/-- A path in its plain form: its names other than dots with one slash between them, or a dot if there are
none. -/
def plain (path : String) : String :=
  let root := if path.toList.head? == some '/' then "/" else ""
  match (names path).filter (· != ".") with
  | [] => if root == "" then "." else root
  | names => root ++ "/".intercalate names

end Flowchart.Path
