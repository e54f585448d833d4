import PaperFolding.Text.Blank

/-!
The flat form of a script: no comments, single spaces, and bracketed groups without spaces, so that
cutting at spaces gives words and whole groups.
-/

namespace PaperFolding.Script

/-- Stands for a space inside brackets. -/
def spaceMark : Char := '|'

/-- Leaves out comments. They do not nest, one that is never closed reaches to the end, and a brace
that closes nothing is ordinary text. -/
def stripComments (inside : Bool) : List Char → List Char
  | [] => []
  | c :: source =>
      if inside || c = '\x7b' then stripComments (c ≠ '\x7d') source
      else c :: stripComments false source

def pad : List Char → List Char :=
  List.flatMap fun c =>
    if c = '[' then [' ', '[']
    else if c = ']' then [']', ' ']
    else if c = '\t' ∨ c = '\n' ∨ c = '\r' then [' ']
    else [c]

def collapse (afterSpace : Bool) : List Char → List Char
  | [] => []
  | c :: text =>
      if c = ' ' then
        if afterSpace then collapse true text else ' ' :: collapse true text
      else c :: collapse false text

def markSpaces (inBrackets : Bool) : List Char → List Char
  | [] => []
  | c :: text =>
      if c = ']' then c :: markSpaces false text
      else if c = '[' then c :: markSpaces true text
      else if c = ' ' ∧ inBrackets then spaceMark :: markSpaces inBrackets text
      else c :: markSpaces inBrackets text

def flatten (source : List Char) : List Char :=
  markSpaces false (collapse false (pad (stripComments false source)))

def canonical (source : String) : String :=
  String.ofList (flatten source.toList)

@[simp] theorem stripComments_nil (inside : Bool) : stripComments inside [] = [] := rfl

@[simp] theorem pad_nil : pad [] = [] := rfl

@[simp] theorem collapse_nil (afterSpace : Bool) : collapse afterSpace [] = [] := rfl

@[simp] theorem markSpaces_nil (inBrackets : Bool) : markSpaces inBrackets [] = [] := rfl

end PaperFolding.Script
