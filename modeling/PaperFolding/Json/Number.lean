import PaperFolding.Coordinate

/-!
Numbers as JSON writes them, and the whole numbers and binary64 values they stand for.
-/

namespace PaperFolding.Json

structure Number where
  negative : Bool
  whole : List Char
  fraction : Option (List Char)
  exponent : Option Int
deriving DecidableEq, Repr

namespace Number

def digitLimit : Nat := UInt64.size - 1

def ofNat (n : Nat) : Number := ⟨false, Nat.toDigits 10 n, none, none⟩

def ofInt (n : Int) : Number := ⟨n < 0, Nat.toDigits 10 n.natAbs, none, none⟩

def isWhole (n : Number) : Bool := n.fraction.isNone && n.exponent.isNone

def natural? (n : Number) : Option Nat :=
  let value := Text.digitsValue n.whole
  if n.isWhole && !n.negative && value ≤ digitLimit then some value else none

/-- A whole number of 64 bits with or without a sign; minus zero is none. -/
def integer? (n : Number) : Option Int :=
  if n.negative then
    let value := Text.digitsValue n.whole
    if n.isWhole && 0 < value && value ≤ 0x8000000000000000 then some (-(value : Int)) else none
  else n.natural?.map Int.ofNat

def absorb (significand : Nat) : List Char → Nat × List Char
  | [] => (significand, [])
  | c :: digits =>
      let grown := 10 * significand + (Text.digit? c).getD 0
      if grown ≤ digitLimit then absorb grown digits else (significand, c :: digits)

/-- Multiplies by a power of ten, or divides by powers of at most `10 ^ 308`; none if the result is
too large. -/
def scale? (value : Coordinate) (e : Int) : Option Coordinate :=
  if 0 ≤ e then
    if e ≤ 308 then
      let scaled := value * Coordinate.nearest 1 e
      if scaled.isFinite then some scaled else none
    else if value.same Coordinate.zero then some value
    else none
  else some (divide (e.natAbs / 308 + 1) value e.natAbs)
where
  divide : Nat → Coordinate → Nat → Coordinate
    | 0, value, _ => value
    | fuel + 1, value, places =>
        if places ≤ 308 then value / Coordinate.nearest 1 places
        else if value.same Coordinate.zero then value
        else divide fuel (value / Coordinate.nearest 1 308) (places - 308)

/-- The value is found from as many digits as fit 64 bits, by one scaling. -/
def real? (n : Number) : Option Coordinate :=
  let (leading, dropped) := absorb 0 n.whole
  let (significand, used) :=
    match n.fraction with
    | none => (leading, 0)
    | some digits =>
        let (all, spare) := absorb leading digits
        (all, digits.length - spare.length)
  let e : Int := dropped.length - used + n.exponent.getD 0
  let unsigned := scale? (Coordinate.ofNat significand) e
  if n.negative then unsigned.map Coordinate.negate else unsigned

/-- Numbers are written with the fewest digits that identify them, with an exponent when the leading
digit stands at a power of ten below -5 or above 15; there is none for values that are not finite. -/
def ofCoordinate? (x : Coordinate) : Option Number :=
  if x.isFinite then
    let d := x.numeral .even
    let digits := Nat.toDigits 10 d.digits
    if -5 ≤ d.leading ∧ d.leading ≤ 15 then
      some ⟨x.isNegative, d.whole, some (if d.fraction.isEmpty then ['0'] else d.fraction), none⟩
    else
      some ⟨x.isNegative, digits.take 1, if digits.length = 1 then none else some (digits.drop 1),
        some d.leading⟩
  else none

def chars (n : Number) : List Char :=
  (if n.negative then ['-'] else []) ++ n.whole ++
    (match n.fraction with
      | none => []
      | some digits => '.' :: digits) ++
    (match n.exponent with
      | none => []
      | some e => 'e' :: (if e < 0 then '-' else '+') :: Nat.toDigits 10 e.natAbs)

end Number

end PaperFolding.Json
