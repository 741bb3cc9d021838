/-!
Paths as text. A path is names between slashes; empty names do not count, and neither does `.`,
except as the first name of a relative path.
-/

namespace StackMachine.Files.Path

/-- The names between the slashes, empty ones too. -/
def names (path : List Char) : List (List Char) := path.splitOn '/'

def isIdle (name : List Char) : Bool := name = [] || name = ['.']

/-- Drops the names at the end that do not count. -/
def trimEnd (rooted : Bool) (names : List (List Char)) : List (List Char) :=
  let kept := (names.reverse.dropWhile isIdle).reverse
  if kept.isEmpty && !rooted && names.head? = some ['.'] then [['.']] else kept

/-- Whether a path starts at the root, and its names up to the last that counts. -/
def split (path : String) : Bool × List (List Char) :=
  match path.toList with
  | '/' :: rest => (true, trimEnd true (names rest))
  | cs => (false, trimEnd false (names cs))

/-- The path without its last name; the root and the empty path have none. -/
def parent? (path : String) : Option String :=
  let (rooted, names) := split path
  if names.isEmpty then none
  else
    let body := ['/'].intercalate (trimEnd rooted names.dropLast)
    some (String.ofList (if rooted then '/' :: body else body))

/-- The last name, if it is a name of its own and not a step in the tree. -/
def fileName? (path : String) : Option String :=
  (split path).2.getLast?.filter (fun name => name ≠ ['.'] ∧ name ≠ ['.', '.']) |>.map String.ofList

/-- A file name without what follows its last dot. A dot at the very front does not count. -/
def stem (name : String) : String :=
  let reversed := name.toList.reverse
  match reversed.dropWhile (· ≠ '.') with
  | '.' :: c :: rest => String.ofList (c :: rest).reverse
  | _ => name

/-- A name below a directory; below the empty path it stays alone. -/
def join (directory name : String) : String :=
  match directory.toList.getLast? with
  | none => name
  | some '/' => directory ++ name
  | some _ => directory ++ "/" ++ name

/-- `path` with its extension replaced by `extension`. -/
def withExtension (path extension : String) : String :=
  let stem := ((fileName? path).map stem).getD ""
  join ((parent? path).getD ".") s!"{stem}.{extension}"

end StackMachine.Files.Path
