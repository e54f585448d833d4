/-!
Numbers of several bytes in files, and texts cut out of them.
-/

namespace PaperFolding.Raster

def bigEndian? (bytes : ByteArray) (start count : Nat) : Option Nat :=
  if start + count ≤ bytes.size then
    some ((List.range count).foldl (fun n i => 256 * n + (bytes[start + i]?.getD 0).toNat) 0)
  else none

def littleEndian? (bytes : ByteArray) (start count : Nat) : Option Nat :=
  if start + count ≤ bytes.size then
    some ((List.range count).foldr (fun i n => 256 * n + (bytes[start + i]?.getD 0).toNat) 0)
  else none

def littleEndian (count n : Nat) : List UInt8 :=
  match count with
  | 0 => []
  | count + 1 => UInt8.ofNat n :: littleEndian count (n / 256)

def bigEndian (count n : Nat) : List UInt8 := (littleEndian count n).reverse

def slice? (bytes : ByteArray) (start count : Nat) : Option ByteArray :=
  if start + count ≤ bytes.size then some (bytes.extract start (start + count)) else none

def hasTag (bytes : ByteArray) (start : Nat) (tag : List UInt8) : Bool :=
  match slice? bytes start tag.length with
  | some found => found.toList = tag
  | none => false

@[simp] theorem length_littleEndian (count n : Nat) : (littleEndian count n).length = count := by
  induction count generalizing n with
  | zero => rfl
  | succ count ih => simp [littleEndian, ih]

end PaperFolding.Raster
