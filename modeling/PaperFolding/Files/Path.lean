import PaperFolding.Text.Blank

/-!
Paths as texts: their parts between slashes, the name at the end, and the paths derived from them.
-/

namespace PaperFolding.Path

def isSlash (c : Char) : Bool := c = '/'

def isAbsolute (path : String) : Bool := path.toList.head? = some '/'

def parts (path : String) : List String :=
  (Text.runs isSlash path.toList).map String.ofList

def join (path next : String) : String :=
  if isAbsolute next || path.isEmpty then next
  else if path.toList.getLast? = some '/' then path ++ next
  else path ++ "/" ++ next

/-- How many characters at the start are never cut off: a slash, or a dot that is a part. -/
def lead : List Char → Nat
  | '/' :: _ => 1
  | ['.'] => 1
  | '.' :: '/' :: _ => 1
  | _ => 0

def trimParts : Nat → List Char → List Char
  | 0, path => path
  | fuel + 1, path =>
      match path with
      | '/' :: rest => trimParts fuel rest
      | ['.'] => []
      | '.' :: '/' :: rest => trimParts fuel rest
      | path => path

def body (path : String) : List Char :=
  let after := (path.toList.drop (lead path.toList)).reverse
  trimParts after.length after

/-- The name at the end of a path; none if the path leads nowhere or upwards. -/
def name? (path : String) : Option String :=
  let last := ((body path).takeWhile fun c => !isSlash c).reverse
  if last = [] ∨ last = ['.', '.'] then none else some (String.ofList last)

def parent (path : String) : String :=
  let before := (body path).dropWhile fun c => !isSlash c
  String.ofList (path.toList.take (lead path.toList) ++ (trimParts before.length before).reverse)

def withName (path name : String) : String :=
  if (name? path).isSome then join (parent path) name else join path name

def extension? (path : String) : Option String :=
  match name? path with
  | none => none
  | some name =>
      let backwards := name.toList.reverse
      match backwards.dropWhile fun c => !(c = '.') with
      | [] => none
      | [_] => none
      | _ :: _ => some (String.ofList (backwards.takeWhile fun c => !(c = '.')).reverse)

def temporary (path : String) : String :=
  withName path ((name? path).getD "" ++ ".tmp")

def settings (directory : String) : String := join directory "foldscript.json"

def history (directory stem : String) : String := join directory (stem ++ ".fs")

end PaperFolding.Path
