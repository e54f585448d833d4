import PaperFolding.Geometry.Outline

/-!
Sheets that are known by name.
-/

namespace PaperFolding

inductive Preset where
  | square
  | a4
  | hexagon
  | dollar
  | forint
deriving DecidableEq, Repr

namespace Preset

def all : List Preset := [square, a4, hexagon, dollar, forint]

def tag : Preset → String
  | square => "square"
  | a4 => "a4"
  | hexagon => "hexagon"
  | dollar => "usd"
  | forint => "huf"

def ofTag? (tag : String) : Option Preset := all.find? fun preset => preset.tag = tag

theorem ofTag?_tag (preset : Preset) : ofTag? preset.tag = some preset := by
  cases preset <;> decide

def rectangle (width height : Coordinate) : Outline :=
  [⟨.zero, .zero⟩, ⟨width, .zero⟩, ⟨width, height⟩, ⟨.zero, height⟩]

/-- The regular hexagon of radius 200 around (200, 200), its corners rounded as sines and cosines
round. -/
def hexagonCorners : Outline :=
  [⟨.ofNat 400, .ofNat 200⟩,
    ⟨.ofNat 300, .ofPlaces 37320508075688775 14⟩,
    ⟨.ofPlaces 9999999999999996 14, .ofPlaces 3732050807568877 13⟩,
    ⟨.zero, .ofPlaces 19999999999999994 14⟩,
    ⟨.ofPlaces 10000000000000007 14, .ofPlaces 26794919243112247 15⟩,
    ⟨.ofPlaces 30000000000000017 14, .ofPlaces 2679491924311236 14⟩]

def outline : Preset → Outline
  | square => rectangle (.ofNat 400) (.ofNat 400)
  | a4 => rectangle (.ofPlaces 42426 2) (.ofNat 300)
  | hexagon => hexagonCorners
  | dollar => rectangle (.ofNat 400) (.ofNat 170)
  | forint => rectangle (.ofNat 400) (.ofPlaces 18182 2)

end Preset

end PaperFolding
