/-!
The two checksums of compressed pictures.
-/

namespace PaperFolding.Raster

def redundancyStep (sum : UInt32) : UInt32 :=
  if sum &&& 1 = 1 then (sum >>> 1) ^^^ 0xEDB88320 else sum >>> 1

def redundancyByte (sum : UInt32) (byte : UInt8) : UInt32 :=
  let mixed := sum ^^^ byte.toUInt32
  redundancyStep (redundancyStep (redundancyStep (redundancyStep
    (redundancyStep (redundancyStep (redundancyStep (redundancyStep mixed)))))))

def redundancy (bytes : ByteArray) : UInt32 :=
  bytes.foldl redundancyByte 0xFFFFFFFF ^^^ 0xFFFFFFFF

def adlerSums (bytes : ByteArray) : Nat × Nat :=
  bytes.foldl (fun (plain, weighted) byte =>
    let plain := (plain + byte.toNat) % 65521
    (plain, (weighted + plain) % 65521)) (1, 0)

def adler (bytes : ByteArray) : Nat :=
  let (plain, weighted) := adlerSums bytes
  65536 * weighted + plain

end PaperFolding.Raster
