import PaperFolding.Raster.Deflate.PrefixCode

/-!
The codes of the blocks that deflated data consist of.
-/

namespace PaperFolding.Raster.Deflate

inductive Token where
  | literal (byte : UInt8)
  | repetition (count distance : Nat)
  | done
deriving DecidableEq, Repr

structure Codes where
  literals : PrefixCode
  distances : PrefixCode

def countTable : List (Nat × Nat) :=
  [(3, 0), (4, 0), (5, 0), (6, 0), (7, 0), (8, 0), (9, 0), (10, 0), (11, 1), (13, 1), (15, 1),
    (17, 1), (19, 2), (23, 2), (27, 2), (31, 2), (35, 3), (43, 3), (51, 3), (59, 3), (67, 4),
    (83, 4), (99, 4), (115, 4), (131, 5), (163, 5), (195, 5), (227, 5), (258, 0)]

def distanceTable : List (Nat × Nat) :=
  [(1, 0), (2, 0), (3, 0), (4, 0), (5, 1), (7, 1), (9, 2), (13, 2), (17, 3), (25, 3), (33, 4),
    (49, 4), (65, 5), (97, 5), (129, 6), (193, 6), (257, 7), (385, 7), (513, 8), (769, 8),
    (1025, 9), (1537, 9), (2049, 10), (3073, 10), (4097, 11), (6145, 11), (8193, 12), (12289, 12),
    (16385, 13), (24577, 13)]

def endSymbol : Nat := 256

def fixedCodes : Codes :=
  ⟨.ofLengths (List.replicate 144 8 ++ List.replicate 112 9 ++ List.replicate 24 7 ++
      List.replicate 8 8),
    .ofLengths (List.replicate 32 5)⟩

def extended (cursor : BitCursor) : Nat × Nat → Except Lapse (Nat × BitCursor)
  | (least, width) => do
      let (more, cursor) ← cursor.bits width
      .ok (least + more, cursor)

/-- The next token. Symbols beyond the counts end a block as well. -/
def Codes.token (codes : Codes) (cursor : BitCursor) : Except Lapse (Token × BitCursor) := do
  let (symbol, cursor) ← codes.literals.symbol cursor
  if symbol < endSymbol then .ok (.literal (UInt8.ofNat symbol), cursor)
  else if symbol = endSymbol then .ok (.done, cursor)
  else
    match countTable[symbol - endSymbol - 1]? with
    | none => .ok (.done, cursor)
    | some entry => do
        let (count, cursor) ← extended cursor entry
        let (symbol, cursor) ← codes.distances.symbol cursor
        match distanceTable[symbol]? with
        | none => .error .corrupt
        | some entry => do
            let (distance, cursor) ← extended cursor entry
            .ok (.repetition count distance, cursor)

def lengthOrder : List Nat :=
  [16, 17, 18, 0, 8, 7, 9, 6, 10, 5, 11, 4, 12, 3, 13, 2, 14, 1, 15]

def lengthsOfLengths : List Nat → BitCursor → Except Lapse (List (Nat × Nat) × BitCursor)
  | [], cursor => .ok ([], cursor)
  | symbol :: order, cursor => do
      let (length, cursor) ← cursor.bits 3
      let (others, cursor) ← lengthsOfLengths order cursor
      .ok ((symbol, length) :: others, cursor)

def lengths (code : PrefixCode) (count : Nat) :
    Nat → BitCursor → List Nat → Except Lapse (List Nat × BitCursor)
  | 0, _, _ => .error .corrupt
  | fuel + 1, cursor, built =>
      if count < built.length then .error .corrupt
      else if built.length = count then .ok (built.reverse, cursor)
      else do
        let (symbol, cursor) ← code.symbol cursor
        if symbol < 16 then lengths code count fuel cursor (symbol :: built)
        else if symbol = 16 then do
          let (times, cursor) ← extended cursor (3, 2)
          match built with
          | [] => .error .corrupt
          | last :: _ => lengths code count fuel cursor (List.replicate times last ++ built)
        else do
          let (times, cursor) ← extended cursor (if symbol = 17 then (3, 3) else (11, 7))
          lengths code count fuel cursor (List.replicate times 0 ++ built)

/-- Codes that leave no word out; distances may also have one word of one bit, or none. -/
def Codes.areSound (codes : Codes) : Bool :=
  codes.literals.isComplete &&
    (codes.distances.isComplete || codes.distances.counts = [] || codes.distances.counts = [1])

def ownCodes (cursor : BitCursor) : Except Lapse (Codes × BitCursor) := do
  let (literals, cursor) ← extended cursor (257, 5)
  let (distances, cursor) ← extended cursor (1, 5)
  let (given, cursor) ← extended cursor (4, 4)
  if 286 < literals ∨ 30 < distances then .error .corrupt
  let (pairs, cursor) ← lengthsOfLengths (lengthOrder.take given) cursor
  let code := PrefixCode.ofLengths ((List.range 19).map fun symbol => (pairs.lookup symbol).getD 0)
  if !code.isComplete then .error .corrupt
  let total := literals + distances
  let (lengths, cursor) ← lengths code total (total + 1) cursor []
  let codes : Codes :=
    ⟨.ofLengths (lengths.take literals), .ofLengths (lengths.drop literals)⟩
  if codes.areSound && lengths[endSymbol]? ≠ some 0 then .ok (codes, cursor)
  else .error .corrupt

end PaperFolding.Raster.Deflate
