import PaperFolding.Geometry.Vector
import PaperFolding.Text.Blank

/-!
What the text of an argument can stand for: points, directions and whole numbers.
-/

namespace PaperFolding.Script

def words (text : String) : List (List Char) := Text.words text.toList

def numbers? (text : String) : Option (List Coordinate) :=
  (words text).mapM Coordinate.read?

def spatial? (text : String) : Option Spatial := do
  match ← numbers? text with
  | [x, y, z] => some ⟨x, y, z⟩
  | _ => none

def planar? (text : String) : Option Planar := do
  match ← numbers? text with
  | [x, y] => some ⟨x, y⟩
  | _ => none

inductive Point where
  | spatial (point : Spatial)
  | planar (point : Planar)
deriving DecidableEq, Repr

def point? (text : String) : Option Point := do
  match ← numbers? text with
  | [x, y, z] => some (.spatial ⟨x, y, z⟩)
  | [x, y] => some (.planar ⟨x, y⟩)
  | _ => none

def integers? (text : String) : Option (List Int) :=
  (words text).mapM (Text.integerWithin? Int64.minValue.toInt Int64.maxValue.toInt)

def degrees? (text : String) : Option Int32 := do
  match words text with
  | [word] =>
      (Text.integerWithin? Int32.minValue.toInt Int32.maxValue.toInt word).map Int32.ofInt
  | _ => none

def exactly? (count : Nat) (arguments : List String) : Option (List String) :=
  if arguments.length = count then some arguments else none

end PaperFolding.Script
