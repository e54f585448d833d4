import PaperFolding.Decimal.Positional
import PaperFolding.Text.Integer

/-!
The numbers of the program: binary64 values kept by their bits. Equality is equality of the bits, so
the two zeros differ and a NaN keeps its sign; arithmetic and comparison by value go through `Float`.
-/

namespace PaperFolding

structure Coordinate where
  bits : UInt64
deriving DecidableEq, Repr

namespace Coordinate

def toFloat (x : Coordinate) : Float := Float.ofBits x.bits

def ofFloat (x : Float) : Coordinate := ⟨x.toBits⟩

def zero : Coordinate := ⟨0⟩

def one : Coordinate := ofFloat 1.0

def ofNat (n : Nat) : Coordinate := ofFloat (Float.ofNat n)

def ofPlaces (digits places : Nat) : Coordinate := ofFloat (Float.ofScientific digits true places)

instance : Inhabited Coordinate := ⟨zero⟩

instance : Add Coordinate := ⟨fun x y => ofFloat (x.toFloat + y.toFloat)⟩
instance : Sub Coordinate := ⟨fun x y => ofFloat (x.toFloat - y.toFloat)⟩
instance : Mul Coordinate := ⟨fun x y => ofFloat (x.toFloat * y.toFloat)⟩
instance : Div Coordinate := ⟨fun x y => ofFloat (x.toFloat / y.toFloat)⟩

def sqrt (x : Coordinate) : Coordinate := ofFloat x.toFloat.sqrt

def abs (x : Coordinate) : Coordinate := ⟨x.bits &&& 0x7FFFFFFFFFFFFFFF⟩

def negate (x : Coordinate) : Coordinate := ⟨x.bits ^^^ 0x8000000000000000⟩

def isNaN (x : Coordinate) : Bool := 0x7FF0000000000000 < x.abs.bits

def isFinite (x : Coordinate) : Bool := x.abs.bits < 0x7FF0000000000000

/-- Equality of values: the two zeros are one value, and a NaN has none. -/
def same (x y : Coordinate) : Bool := x.toFloat == y.toFloat

def lt (x y : Coordinate) : Bool := x.toFloat < y.toFloat

def le (x y : Coordinate) : Bool := x.toFloat ≤ y.toFloat

/-- The smaller of two values; a NaN gives way. -/
def min (x y : Coordinate) : Coordinate :=
  if x.isNaN then y else if y.isNaN then x else if y.lt x then y else x

def max (x y : Coordinate) : Coordinate :=
  if x.isNaN then y else if y.isNaN then x else if x.lt y then y else x

/-- The place of the bits in the order from the negative NaNs over the negative and the positive
numbers to the positive NaNs. -/
def rank (x : Coordinate) : Int :=
  let magnitude : Nat := x.abs.bits.toNat
  if x.bits >>> 63 = 1 then -(magnitude : Int) - 1 else magnitude

def infinity : Coordinate := ⟨0x7FF0000000000000⟩

def notANumber : Coordinate := ⟨0x7FF8000000000000⟩

def greatest : Coordinate := ⟨0x7FEFFFFFFFFFFFFF⟩

def least : Coordinate := ⟨0xFFEFFFFFFFFFFFFF⟩

def isNegative (x : Coordinate) : Bool := x.bits >>> 63 = 1

def numeral (tie : Decimal.Tie) (x : Coordinate) : Decimal.Numeral :=
  if x.abs = zero then ⟨0, 0⟩ else (Decimal.Magnitude.ofBits x.abs.bits).shortest tie

/-- A number in a text has the fewest digits that identify it and never an exponent; a value half-way
between two such decimals is written as the upper one. -/
def chars (x : Coordinate) : List Char :=
  if x.isNaN then ['N', 'a', 'N']
  else
    let sign := if x.isNegative then ['-'] else []
    if x.isFinite then
      let d := x.numeral .up
      sign ++ d.whole ++ (if d.fraction.isEmpty then [] else '.' :: d.fraction)
    else sign ++ ['i', 'n', 'f']

def text (x : Coordinate) : String := String.ofList x.chars

/-- The number nearest to `m * 10 ^ e`; beyond four hundred places it is infinite or zero. -/
def nearest (m : Nat) (e : Int) : Coordinate :=
  if m = 0 then zero
  else
    let places := (Nat.toDigits 10 m).length + e
    if 400 < places then infinity
    else if places < -400 then zero
    else ofFloat (Float.ofScientific m (e < 0) e.natAbs)

def unsigned? (text : List Char) : Option Coordinate :=
  let whole := text.takeWhile Text.isDigit
  let afterWhole := text.dropWhile Text.isDigit
  let (fraction, rest) :=
    match afterWhole with
    | '.' :: tail => (tail.takeWhile Text.isDigit, tail.dropWhile Text.isDigit)
    | tail => ([], tail)
  if whole.isEmpty && fraction.isEmpty then none
  else
    let m := Text.digitsValue (whole ++ fraction)
    let places : Int := fraction.length
    match rest with
    | [] => some (nearest m (-places))
    | c :: exponent =>
        if c = 'e' ∨ c = 'E' then
          (Text.integer? exponent).map fun e => nearest m (e - places)
        else none

def read? (text : List Char) : Option Coordinate :=
  let (negative, body) :=
    match text with
    | '-' :: rest => (true, rest)
    | '+' :: rest => (false, rest)
    | rest => (false, rest)
  let word := String.ofList (body.map Char.toLower)
  let value :=
    if word = "inf" ∨ word = "infinity" then some infinity
    else if word = "nan" then some notANumber
    else unsigned? body
  if negative then value.map negate else value

end Coordinate

end PaperFolding
