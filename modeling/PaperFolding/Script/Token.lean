import PaperFolding.Script.Canonical

/-!
Tokens: the words and bracketed groups of a script, the argument a group carries, and the text that
a row of tokens is written back as.
-/

namespace PaperFolding.Script

def isBracket (c : Char) : Bool := c = '[' || c = ']'

def cut (flat : List Char) : List (List Char) :=
  Text.runs (· = ' ') flat

def tokens (source : String) : List String :=
  (cut (flatten source.toList)).map String.ofList

def isFragment (token : String) : Bool :=
  token.toList.any isBracket

def unmark (c : Char) : Char := if c = spaceMark then ' ' else c

def argument (token : String) : String :=
  String.ofList (Text.trim ((token.toList.filter fun c => !isBracket c).map unmark))

def restore (row : List String) : String :=
  String.ofList (List.intercalate [' '] (row.map fun token => token.toList.map unmark))

end PaperFolding.Script
