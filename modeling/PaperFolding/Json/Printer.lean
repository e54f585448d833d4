import PaperFolding.Json.Value
import PaperFolding.Text.Integer

/-!
Writing JSON texts: indented by two spaces, every item and every field on a line of its own.
-/

namespace PaperFolding.Json

def escape : Char → List Char
  | '\"' => ['\\', '\"']
  | '\\' => ['\\', '\\']
  | '\x08' => ['\\', 'b']
  | '\x0c' => ['\\', 'f']
  | '\n' => ['\\', 'n']
  | '\r' => ['\\', 'r']
  | '\t' => ['\\', 't']
  | c =>
      if c.toNat < 0x20 then '\\' :: 'u' :: (Text.hexadecimal 4 c.toNat).toList else [c]

def quote (text : String) : List Char :=
  '\"' :: text.toList.flatMap escape ++ ['\"']

def newLine (level : Nat) : List Char := '\n' :: List.replicate (2 * level) ' '

mutual

/-- The value as it stands at a nesting level; a text that cannot be read is left empty. -/
def chars (level : Nat) : Json → List Char
  | .null => ['n', 'u', 'l', 'l']
  | .bool true => ['t', 'r', 'u', 'e']
  | .bool false => ['f', 'a', 'l', 's', 'e']
  | .number n => n.chars
  | .text value => quote (value.getD "")
  | .list [] => ['[', ']']
  | .list (item :: items) =>
      '[' :: newLine (level + 1) ++ chars (level + 1) item ++ itemChars (level + 1) items ++
        newLine level ++ [']']
  | .object [] => ['\x7b', '\x7d']
  | .object ((name, value) :: fields) =>
      '\x7b' :: newLine (level + 1) ++ quote (name.getD "") ++ ':' :: ' ' ::
        chars (level + 1) value ++ fieldChars (level + 1) fields ++ newLine level ++ ['\x7d']

def itemChars (level : Nat) : List Json → List Char
  | [] => []
  | item :: items => ',' :: newLine level ++ chars level item ++ itemChars level items

def fieldChars (level : Nat) : List (Option String × Json) → List Char
  | [] => []
  | (name, value) :: fields =>
      ',' :: newLine level ++ quote (name.getD "") ++ ':' :: ' ' :: chars level value ++
        fieldChars level fields

end

def write (value : Json) : String := String.ofList (chars 0 value)

end PaperFolding.Json
