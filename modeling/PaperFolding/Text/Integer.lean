/-!
Whole numbers in decimal digits, with an optional sign, and colors' hexadecimal digits.
-/

namespace PaperFolding.Text

def digit? (c : Char) : Option Nat :=
  if '0' ≤ c ∧ c ≤ '9' then some (c.toNat - '0'.toNat) else none

def isDigit (c : Char) : Bool :=
  (digit? c).isSome

def digitsValue (digits : List Char) : Nat :=
  digits.foldl (fun value c => 10 * value + (digit? c).getD 0) 0

@[simp] theorem digitsValue_nil : digitsValue [] = 0 := rfl

def natural? (text : List Char) : Option Nat :=
  if text.isEmpty || !text.all isDigit then none else some (digitsValue text)

def integer? : List Char → Option Int
  | '-' :: digits => (natural? digits).map fun n => -(n : Int)
  | '+' :: digits => (natural? digits).map Int.ofNat
  | digits => (natural? digits).map Int.ofNat

def integerWithin? (low high : Int) (text : List Char) : Option Int :=
  (integer? text).filter fun n => decide (low ≤ n) && decide (n ≤ high)

def hexadecimal (width n : Nat) : String :=
  let digits := Nat.toDigits 16 n
  String.ofList (List.replicate (width - digits.length) '0' ++ digits)

end PaperFolding.Text
