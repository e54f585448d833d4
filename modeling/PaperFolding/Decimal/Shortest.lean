/-!
Which decimal stands for a binary64 magnitude: among the decimals that read back to it, one with the
fewest digits, and of those the nearest.
-/

namespace PaperFolding.Decimal

/-- A positive finite value `significand * 2 ^ exponent`. -/
structure Magnitude where
  significand : Nat
  exponent : Int
  /-- The gap to the value below is half the gap to the value above. -/
  narrowBelow : Bool

def Magnitude.ofBits (bits : UInt64) : Magnitude :=
  let e := ((bits >>> 52) &&& 0x7FF).toNat
  let f := (bits &&& 0xFFFFFFFFFFFFF).toNat
  if e = 0 then ⟨f, -1074, false⟩
  else ⟨0x10000000000000 + f, (e : Int) - 1075, f = 0 ∧ 1 < e⟩

structure Numeral where
  digits : Nat
  exponent : Int
deriving DecidableEq, Repr

inductive Tie where
  | up
  | even
deriving DecidableEq, Repr

def compareScaled (a : Nat) (i : Int) (n : Nat) (j : Int) : Ordering :=
  compare (a * Nat.pow 10 i.toNat * Nat.pow 2 (-j).toNat) (n * Nat.pow 2 j.toNat * Nat.pow 10 (-i).toNat)

/-- The decimal lies among the reals that round to the value, the ends of that interval included
exactly when the significand is even. -/
def Magnitude.readsBack (x : Magnitude) (d : Numeral) : Bool :=
  let low := if x.narrowBelow then 4 * x.significand - 1 else 4 * x.significand - 2
  let high := 4 * x.significand + 2
  let closed := x.significand % 2 = 0
  let fromLow := compareScaled d.digits d.exponent low (x.exponent - 2)
  let fromHigh := compareScaled d.digits d.exponent high (x.exponent - 2)
  (fromLow = .gt ∨ (closed ∧ fromLow = .eq)) ∧ (fromHigh = .lt ∨ (closed ∧ fromHigh = .eq))

/-- The least `k` with the value below `10 ^ k`, found from the binary logarithm and put right by
exact comparison. -/
def Magnitude.scale (x : Magnitude) : Int :=
  let bits : Int := x.significand.log2 + x.exponent
  let guess := (bits * 30103).fdiv 100000
  if compareScaled 1 (guess + 1) x.significand x.exponent ≠ .gt then guess + 2
  else if compareScaled 1 guess x.significand x.exponent = .gt then guess
  else guess + 1

def Magnitude.inUnits (x : Magnitude) (e : Int) : Nat × Nat :=
  (x.significand * Nat.pow 2 x.exponent.toNat * Nat.pow 10 (-e).toNat,
    Nat.pow 2 (-x.exponent).toNat * Nat.pow 10 e.toNat)

def Magnitude.onGrid? (x : Magnitude) (tie : Tie) (e : Int) : Option Numeral :=
  let (num, den) := x.inUnits e
  let below : Numeral := ⟨num / den, e⟩
  let above : Numeral := ⟨num / den + 1, e⟩
  match x.readsBack below, x.readsBack above with
  | true, false => some below
  | false, true => some above
  | false, false => none
  | true, true =>
      match compare (2 * (num % den)) den, tie with
      | .lt, _ => some below
      | .gt, _ => some above
      | .eq, .up => some above
      | .eq, .even => some (if below.digits % 2 = 0 then below else above)

theorem Magnitude.readsBack_of_onGrid? {x : Magnitude} {tie : Tie} {e : Int} {d : Numeral}
    (h : x.onGrid? tie e = some d) : x.readsBack d = true := by
  simp only [onGrid?] at h
  split at h
  case h_1 below _ => exact Option.some.inj h ▸ below
  case h_2 _ above => exact Option.some.inj h ▸ above
  case h_3 => contradiction
  case h_4 below above =>
    split at h
    · exact Option.some.inj h ▸ below
    · exact Option.some.inj h ▸ above
    · exact Option.some.inj h ▸ above
    · rw [← Option.some.inj h]
      split <;> assumption

def Magnitude.exact (x : Magnitude) : Numeral :=
  if 0 ≤ x.exponent then ⟨x.significand * Nat.pow 2 x.exponent.toNat, 0⟩
  else ⟨x.significand * Nat.pow 5 (-x.exponent).toNat, x.exponent⟩

def Numeral.strip : Nat → Numeral → Numeral
  | 0, d => d
  | fuel + 1, d =>
      if d.digits ≠ 0 ∧ d.digits % 10 = 0 then strip fuel ⟨d.digits / 10, d.exponent + 1⟩ else d

/-- Tries one digit, two digits and so on up to seventeen, which always suffice. -/
def Magnitude.shortest (x : Magnitude) (tie : Tie) : Numeral :=
  let top := x.scale
  let found := (List.range 17).findSome? fun n => x.onGrid? tie (top - (n + 1 : Nat))
  (found.getD x.exact).strip 17

end PaperFolding.Decimal
