import PaperFolding.Json.Value

/-!
Reading JSON texts. Every reader takes the text and gives what it read with the text that follows;
the fuel of the nested readers is bounded by the length of the text.
-/

namespace PaperFolding.Json

def isBlank (c : Char) : Bool := c = ' ' || c = '\t' || c = '\n' || c = '\r'

def skipBlank (source : List Char) : List Char := source.dropWhile isBlank

def after? : List Char → List Char → Option (List Char)
  | [], source => some source
  | c :: word, d :: source => if c = d then after? word source else none
  | _ :: _, [] => none

def hexDigit? (c : Char) : Option Nat :=
  if '0' ≤ c ∧ c ≤ '9' then some (c.toNat - 48)
  else if 'a' ≤ c ∧ c ≤ 'f' then some (c.toNat - 87)
  else if 'A' ≤ c ∧ c ≤ 'F' then some (c.toNat - 55)
  else none

inductive Piece where
  | plain (c : Char)
  | unit (value : Nat)
deriving DecidableEq, Repr

def escaped? : Char → Option Char
  | '\"' => some '\"'
  | '\\' => some '\\'
  | '/' => some '/'
  | 'b' => some '\x08'
  | 'f' => some '\x0c'
  | 'n' => some '\n'
  | 'r' => some '\r'
  | 't' => some '\t'
  | _ => none

def pieces? : List Char → Option (List Piece × List Char)
  | [] => none
  | '\"' :: rest => some ([], rest)
  | '\\' :: 'u' :: a :: b :: c :: d :: rest => do
      let a ← hexDigit? a
      let b ← hexDigit? b
      let c ← hexDigit? c
      let d ← hexDigit? d
      let (pieces, rest) ← pieces? rest
      some (.unit (((a * 16 + b) * 16 + c) * 16 + d) :: pieces, rest)
  | '\\' :: c :: rest => do
      let c ← escaped? c
      let (pieces, rest) ← pieces? rest
      some (.plain c :: pieces, rest)
  | c :: rest =>
      if c.toNat < 0x20 ∨ c = '\\' then none
      else do
        let (pieces, rest) ← pieces? rest
        some (.plain c :: pieces, rest)

def isHighHalf (n : Nat) : Bool := 0xD800 ≤ n && n < 0xDC00

def isLowHalf (n : Nat) : Bool := 0xDC00 ≤ n && n < 0xE000

/-- Joins surrogate pairs; none if a half stands alone. -/
def decode? : List Piece → Option (List Char)
  | [] => some []
  | .plain c :: pieces => (decode? pieces).map (c :: ·)
  | .unit high :: .unit low :: pieces =>
      if isHighHalf high then
        if isLowHalf low then
          (decode? pieces).map
            (Char.ofNat (0x10000 + (high - 0xD800) * 0x400 + (low - 0xDC00)) :: ·)
        else none
      else if isLowHalf high then none
      else (decode? (.unit low :: pieces)).map (Char.ofNat high :: ·)
  | .unit n :: pieces =>
      if isHighHalf n || isLowHalf n then none else (decode? pieces).map (Char.ofNat n :: ·)

def quoted? (source : List Char) : Option (Option String × List Char) :=
  (pieces? source).map fun (pieces, rest) => ((decode? pieces).map String.ofList, rest)

/-- The digits before the point: a single zero, or digits that do not begin with zero. -/
def wholeDigits? (source : List Char) : Option (List Char × List Char) :=
  match source.takeWhile Text.isDigit, source.dropWhile Text.isDigit with
  | [], _ => none
  | ['0'], rest => some (['0'], rest)
  | '0' :: _, _ => none
  | digits, rest => some (digits, rest)

def fraction? : List Char → Option (Option (List Char) × List Char)
  | '.' :: rest =>
      match rest.takeWhile Text.isDigit with
      | [] => none
      | digits => some (some digits, rest.dropWhile Text.isDigit)
  | rest => some (none, rest)

def exponent? : List Char → Option (Option Int × List Char)
  | [] => some (none, [])
  | c :: rest =>
      if c = 'e' ∨ c = 'E' then
        let (negative, body) :=
          match rest with
          | '+' :: body => (false, body)
          | '-' :: body => (true, body)
          | body => (false, body)
        match body.takeWhile Text.isDigit with
        | [] => none
        | digits =>
            let n : Int := Text.digitsValue digits
            some (some (if negative then -n else n), body.dropWhile Text.isDigit)
      else some (none, c :: rest)

def number? (source : List Char) : Option (Number × List Char) := do
  let (negative, body) :=
    match source with
    | '-' :: body => (true, body)
    | body => (false, body)
  let (whole, rest) ← wholeDigits? body
  let (fraction, rest) ← fraction? rest
  let (exponent, rest) ← exponent? rest
  some (⟨negative, whole, fraction, exponent⟩, rest)

mutual

def value? : Nat → List Char → Option (Json × List Char)
  | 0, _ => none
  | fuel + 1, source =>
      match skipBlank source with
      | '\"' :: rest => (quoted? rest).map fun (value, rest) => (.text value, rest)
      | '[' :: rest =>
          match skipBlank rest with
          | ']' :: rest => some (.list [], rest)
          | _ => (items? fuel rest).map fun (items, rest) => (.list items, rest)
      | '\x7b' :: rest =>
          match skipBlank rest with
          | '\x7d' :: rest => some (.object [], rest)
          | _ => (fields? fuel rest).map fun (fields, rest) => (.object fields, rest)
      | 'n' :: rest => (after? ['u', 'l', 'l'] rest).map fun rest => (.null, rest)
      | 't' :: rest => (after? ['r', 'u', 'e'] rest).map fun rest => (.bool true, rest)
      | 'f' :: rest => (after? ['a', 'l', 's', 'e'] rest).map fun rest => (.bool false, rest)
      | rest => (number? rest).map fun (n, rest) => (.number n, rest)

def items? : Nat → List Char → Option (List Json × List Char)
  | 0, _ => none
  | fuel + 1, source => do
      let (item, rest) ← value? fuel source
      match skipBlank rest with
      | ',' :: rest =>
          let (items, rest) ← items? fuel rest
          some (item :: items, rest)
      | ']' :: rest => some ([item], rest)
      | _ => none

def fields? : Nat → List Char → Option (List (Option String × Json) × List Char)
  | 0, _ => none
  | fuel + 1, source =>
      match skipBlank source with
      | '\"' :: rest => do
          let (name, rest) ← quoted? rest
          match skipBlank rest with
          | ':' :: rest =>
              let (value, rest) ← value? fuel rest
              match skipBlank rest with
              | ',' :: rest =>
                  let (fields, rest) ← fields? fuel rest
                  some ((name, value) :: fields, rest)
              | '\x7d' :: rest => some ([(name, value)], rest)
              | _ => none
          | _ => none
      | _ => none

end

def read? (source : String) : Option Json := do
  let chars := source.toList
  let (value, rest) ← value? (2 * chars.length + 1) chars
  if (skipBlank rest).isEmpty then some value else none

end PaperFolding.Json
