import PaperFolding.Json.Number

/-!
JSON values. A text or a name is none when its escapes name half of a surrogate pair, which no text
can hold; such a value may be skipped but not read.
-/

namespace PaperFolding

inductive Json where
  | null
  | bool (value : Bool)
  | number (value : Json.Number)
  | text (value : Option String)
  | list (items : List Json)
  | object (fields : List (Option String × Json))
deriving Repr

namespace Json

def string (value : String) : Json := .text (some value)

def natural (n : Nat) : Json := .number (.ofNat n)

def integer (n : Int) : Json := .number (.ofInt n)

def coordinate (x : Coordinate) : Json := ((Number.ofCoordinate? x).map Json.number).getD .null

def record (fields : List (String × Json)) : Json :=
  .object (fields.map fun (name, value) => (some name, value))

def optional {α : Type} (write : α → Json) : Option α → Json
  | none => .null
  | some value => write value

mutual

def depth : Json → Nat
  | .list items => depthOfItems items + 1
  | .object fields => depthOfFields fields + 1
  | _ => 0

def depthOfItems : List Json → Nat
  | [] => 0
  | item :: items => Nat.max item.depth (depthOfItems items)

def depthOfFields : List (Option String × Json) → Nat
  | [] => 0
  | (_, value) :: fields => Nat.max value.depth (depthOfFields fields)

end

mutual

def readable : Json → Bool
  | .number n => n.real?.isSome
  | .text value => value.isSome
  | .list items => readableItems items
  | .object fields => readableFields fields
  | _ => true

def readableItems : List Json → Bool
  | [] => true
  | item :: items => item.readable && readableItems items

def readableFields : List (Option String × Json) → Bool
  | [] => true
  | (name, value) :: fields => name.isSome && value.readable && readableFields fields

end

def natural? : Json → Option Nat
  | .number n => n.natural?
  | _ => none

def word64? (value : Json) : Option UInt64 := value.natural?.map UInt64.ofNat

def word32? (value : Json) : Option UInt32 :=
  (value.natural?.filter fun n => decide (n < UInt32.size)).map UInt32.ofNat

def integer? : Json → Option Int
  | .number n => n.integer?
  | _ => none

def coordinate? : Json → Option Coordinate
  | .number n => n.real?
  | _ => none

def optional? {α : Type} (read : Json → Option α) : Json → Option (Option α)
  | .null => some none
  | value => (read value).map some

def list? {α : Type} (read : Json → Option α) : Json → Option (List α)
  | .list items => items.mapM read
  | _ => none

/-- The value of a field that stands at most once among the fields: `some none` if it does not. -/
def field? (name : String) (fields : List (Option String × Json)) : Option (Option Json) :=
  match fields.filter fun field => field.1 = some name with
  | [] => some none
  | [(_, value)] => some (some value)
  | _ => none

def named (fields : List (Option String × Json)) : Bool :=
  fields.all fun field => field.1.isSome

end Json

end PaperFolding
