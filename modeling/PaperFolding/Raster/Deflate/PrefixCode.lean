import PaperFolding.Raster.BitCursor

/-!
Codes of which no word begins another, given by the lengths of their words: the words are ordered by
length and then by symbol.
-/

namespace PaperFolding.Raster

structure PrefixCode where
  counts : List Nat
  symbols : Array Nat

namespace PrefixCode

def ofLengths (lengths : List Nat) : PrefixCode :=
  let widths := (List.range (lengths.foldl Nat.max 0)).map fun n => n + 1
  ⟨widths.map fun width => lengths.count width,
    (widths.flatMap fun width =>
      lengths.zipIdx.filterMap fun (length, symbol) =>
        if length = width then some symbol else none).toArray⟩

/-- The number of words that are left for longer ones to begin with; negative once there are too many
words. -/
def free (counts : List Nat) : Int :=
  counts.foldl (fun (left : Int) (count : Nat) => 2 * left - (count : Int)) 1

def isComplete (code : PrefixCode) : Bool := free code.counts = 0

/-- Reads on until the bits are a word. `first` is the least word of the length reached so far and
`seen` the number of shorter words. -/
def walk (symbols : Array Nat) :
    List Nat → Nat → Nat → Nat → BitCursor → Except Lapse (Nat × BitCursor)
  | [], _, _, _, _ => .error .corrupt
  | count :: counts, word, first, seen, cursor => do
      let (bit, cursor) ← cursor.bit
      let word := 2 * word + bit
      let first := 2 * first
      if word < first + count then
        match symbols[seen + (word - first)]? with
        | some symbol => .ok (symbol, cursor)
        | none => .error .corrupt
      else walk symbols counts word (first + count) (seen + count) cursor

def symbol (code : PrefixCode) (cursor : BitCursor) : Except Lapse (Nat × BitCursor) :=
  walk code.symbols code.counts 0 0 0 cursor

end PrefixCode

end PaperFolding.Raster
