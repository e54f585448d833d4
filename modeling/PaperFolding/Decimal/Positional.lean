import PaperFolding.Decimal.Shortest

/-!
The digits of a decimal before and after the point.
-/

namespace PaperFolding.Decimal

def Numeral.leading (d : Numeral) : Int :=
  d.exponent + (Nat.toDigits 10 d.digits).length - 1

def Numeral.whole (d : Numeral) : List Char :=
  if 0 ≤ d.exponent then Nat.toDigits 10 d.digits ++ List.replicate d.exponent.toNat '0'
  else if 0 ≤ d.leading then (Nat.toDigits 10 d.digits).take (d.leading + 1).toNat
  else ['0']

def Numeral.fraction (d : Numeral) : List Char :=
  if 0 ≤ d.exponent then []
  else if 0 ≤ d.leading then (Nat.toDigits 10 d.digits).drop (d.leading + 1).toNat
  else List.replicate (-d.leading - 1).toNat '0' ++ Nat.toDigits 10 d.digits

end PaperFolding.Decimal
