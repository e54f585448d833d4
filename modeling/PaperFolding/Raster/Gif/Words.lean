import PaperFolding.Raster.BitCursor

/-!
Symbols stored as words. Each word stands for a row of symbols; each word that is read adds a row, the
row before it and one symbol more.
-/

namespace PaperFolding.Raster.Gif

def wordLimit : Nat := 12

def clearWord (bits : Nat) : Nat := Nat.pow 2 bits

def endWord (bits : Nat) : Nat := clearWord bits + 1

def initialCount (bits : Nat) : Nat := clearWord bits + 2

def initialRows (bits : Nat) : Array (List Nat) :=
  (Array.range (clearWord bits)).map (fun symbol => [symbol]) ++ #[[], []]

/-- The length of the next word, when there are `count` rows. At the start all words have one bit more
than symbols; later there is room for one row more. -/
def wordWidth (bits count : Nat) : Nat :=
  if count = initialCount bits then bits + 1 else Nat.min wordLimit (Nat.log2 count + 1)

/-- The row a word stands for; the word of the row to be added stands for the row before it and the
first symbol of that. -/
def row? (rows : Array (List Nat)) (before : Option (List Nat)) (word : Nat) : Option (List Nat) :=
  match before with
  | none => rows[word]?
  | some last =>
      if word < rows.size then rows[word]?
      else if word = rows.size then some (last ++ last.take 1)
      else none

def expand? (bits count : Nat) :
    Nat → BitCursor → Array (List Nat) → Option (List Nat) → Array Nat → Option (Array Nat)
  | 0, _, _, _, _ => none
  | fuel + 1, cursor, rows, before, out =>
      if count ≤ out.size then some (out.extract 0 count)
      else do
        let (word, cursor) ← (cursor.bits (wordWidth bits rows.size)).toOption
        if word = clearWord bits then expand? bits count fuel cursor (initialRows bits) none out
        else if word = endWord bits then none
        else do
          let row ← row? rows before word
          let rows :=
            match before with
            | some last =>
                if rows.size < Nat.pow 2 wordLimit then rows.push (last ++ row.take 1) else rows
            | none => rows
          expand? bits count fuel cursor rows (some row) (out ++ row)

def symbols? (bits count : Nat) (data : ByteArray) : Option (Array Nat) :=
  expand? bits count (8 * data.size + 1) ⟨data, 0⟩ (initialRows bits) none #[]

def plainRun (bits : Nat) : Nat := clearWord bits - 2

def plainWords (bits : Nat) : Nat → List Nat → List Nat
  | _, [] => [endWord bits]
  | 0, symbol :: symbols => clearWord bits :: symbol :: plainWords bits (plainRun bits - 1) symbols
  | room + 1, symbol :: symbols => symbol :: plainWords bits room symbols

/-- Words of one length, packed from the low end of each byte; `held` are the bits of a byte that is
not full yet, and `count` is their number. -/
def packWords (width : Nat) : List Nat → Nat → Nat → List UInt8
  | [], held, count => if count = 0 then [] else [UInt8.ofNat held]
  | word :: words, held, count =>
      let held := held + word * Nat.pow 2 count
      let full := (count + width) / 8
      littleEndian full held ++
        packWords width words (held / Nat.pow 256 full) ((count + width) % 8)

end PaperFolding.Raster.Gif
