import PaperFolding.Raster.Field

/-!
Bits read one after the other, from the low end of each byte.
-/

namespace PaperFolding.Raster

inductive Lapse where
  /-- They end too early. -/
  | short
  | corrupt
deriving DecidableEq, Repr

structure BitCursor where
  bytes : ByteArray
  position : Nat

namespace BitCursor

def bit (cursor : BitCursor) : Except Lapse (Nat × BitCursor) :=
  let byte := cursor.position / 8
  if h : byte < cursor.bytes.size then
    .ok ((cursor.bytes[byte].toNat >>> (cursor.position % 8)) % 2,
      { cursor with position := cursor.position + 1 })
  else .error .short

def bits (count : Nat) (cursor : BitCursor) : Except Lapse (Nat × BitCursor) :=
  match count with
  | 0 => .ok (0, cursor)
  | count + 1 => do
      let (low, cursor) ← cursor.bit
      let (high, cursor) ← bits count cursor
      .ok (low + 2 * high, cursor)

def align (cursor : BitCursor) : BitCursor :=
  { cursor with position := (cursor.position + 7) / 8 * 8 }

def remaining (cursor : BitCursor) : Nat := 8 * cursor.bytes.size - cursor.position

end BitCursor

end PaperFolding.Raster
