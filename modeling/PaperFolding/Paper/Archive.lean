import PaperFolding.Json.Printer
import PaperFolding.Json.Reader
import PaperFolding.Paper.Color
import PaperFolding.Paper.Ledger

/-!
The archive form of a ledger: a JSON text with the outline, the journal and the color of the paper.
What was undone is not kept.
-/

namespace PaperFolding

structure Archive where
  color : Option Color
  ledger : Ledger
deriving DecidableEq, Repr

namespace Archive

def version : UInt32 := 1

/-- How deep a text may be nested where its values are kept. -/
def depthLimit : Nat := 127

def planarJson (point : Planar) : Json := .list [.coordinate point.x, .coordinate point.y]

def spatialJson (point : Spatial) : Json :=
  .list [.coordinate point.x, .coordinate point.y, .coordinate point.z]

def operationFields : Operation → List (String × Json)
  | .crease => [("op", .string "crease")]
  | .rotate degrees => [("op", .string "rotate"), ("angle", .integer degrees.toInt)]
  | .reflect => [("op", .string "reflect")]
  | .cut => [("op", .string "cut")]

def recordJson (record : Record) : Json :=
  .record (operationFields record.operation ++
    [("point", spatialJson record.plane.point), ("normal", spatialJson record.plane.normal),
      ("region", .optional (fun region => .natural region.toNat) record.region)])

def json (archive : Archive) : Json :=
  .record
    [("version", .natural version.toNat),
      ("color", .optional (fun color => .natural color.packed.toNat) archive.color),
      ("model", .record
        [("outline", .list (archive.ledger.outline.map planarJson)),
          ("journal", .list (archive.ledger.journal.map recordJson))])]

def write (archive : Archive) : String := Json.write archive.json

def planar? : Json → Option Planar
  | .list [x, y] => do return ⟨← x.coordinate?, ← y.coordinate?⟩
  | _ => none

def spatial? : Json → Option Spatial
  | .list [x, y, z] => do return ⟨← x.coordinate?, ← y.coordinate?, ← z.coordinate?⟩
  | _ => none

def degrees? (value : Json) : Option Int32 :=
  (value.integer?.filter fun n =>
    decide (Int32.minValue.toInt ≤ n) && decide (n ≤ Int32.maxValue.toInt)).map Int32.ofInt

def operationNames : List String := ["crease", "rotate", "reflect", "cut"]

def operationName? : Json → Option String
  | .text (some name) => if name ∈ operationNames then some name else none
  | value => do operationNames[← value.natural?]?

def operation? (fields : List (Option String × Json)) : Option Operation := do
  match ← operationName? (← (← Json.field? "op" fields)) with
  | "rotate" => do return .rotate (← degrees? (← (← Json.field? "angle" fields)))
  | "crease" => some .crease
  | "reflect" => some .reflect
  | _ => some .cut

def isOwnField (field : Option String × Json) : Bool :=
  field.1 = some "point" || field.1 = some "normal" || field.1 = some "region"

/-- A record by its named fields. Other fields are kept until the operation is known, so they must be
readable and not too deep. -/
def record? : Json → Option Record
  | .object fields => do
      let point ← spatial? (← (← Json.field? "point" fields))
      let normal ← spatial? (← (← Json.field? "normal" fields))
      let region ← (Json.optional? Json.word64?) ((← Json.field? "region" fields).getD .null)
      let others := fields.filter fun field => !isOwnField field
      if Json.readableFields others && Json.depthOfFields others ≤ depthLimit - 4 then
        return ⟨← operation? others, ⟨point, normal⟩, region⟩
      else none
  | _ => none

def ledgerOfParts? (outline journal : Json) : Option Ledger := do
  return ⟨← Json.list? planar? outline, ← Json.list? record? journal, []⟩

def ledger? : Json → Option Ledger
  | .object fields =>
      if Json.named fields then do
        ledgerOfParts? (← (← Json.field? "outline" fields)) (← (← Json.field? "journal" fields))
      else none
  | .list [outline, journal] => ledgerOfParts? outline journal
  | _ => none

def color? (value : Json) : Option Color := value.word32?.map Color.mk

def ofParts? (version color ledger : Json) : Option (UInt32 × Archive) := do
  return (← version.word32?, ⟨← Json.optional? color? color, ← ledger? ledger⟩)

def ofJson? : Json → Option (UInt32 × Archive)
  | .object fields =>
      if Json.named fields then do
        ofParts? (← (← Json.field? "version" fields))
          ((← Json.field? "color" fields).getD .null) (← (← Json.field? "model" fields))
      else none
  | .list [version, color, ledger] => ofParts? version color ledger
  | _ => none

def read (text : String) : Except Refusal Archive :=
  match (Json.read? text).bind ofJson? with
  | none => .error .unreadableArchive
  | some (found, archive) =>
      if found = version then .ok archive else .error (.unsupportedVersion found)

end Archive

end PaperFolding
