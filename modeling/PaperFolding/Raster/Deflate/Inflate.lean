import PaperFolding.Raster.Deflate.Block

/-!
Deflated data made whole again, as far as they go.
-/

namespace PaperFolding.Raster.Deflate

abbrev Progress := ByteArray × Except Lapse BitCursor

/-- Repeats `count` bytes from `distance` bytes back, which may overlap what is being written. -/
def again (distance : Nat) : Nat → ByteArray → ByteArray
  | 0, out => out
  | count + 1, out => again distance count (out.push (out[out.size - distance]?.getD 0))

def coded (codes : Codes) : Nat → BitCursor → ByteArray → Progress
  | 0, _, out => (out, .error .short)
  | fuel + 1, cursor, out =>
      match codes.token cursor with
      | .error lapse => (out, .error lapse)
      | .ok (.done, cursor) => (out, .ok cursor)
      | .ok (.literal byte, cursor) => coded codes fuel cursor (out.push byte)
      | .ok (.repetition count distance, cursor) =>
          if distance ≤ out.size then coded codes fuel cursor (again distance count out)
          else (out, .error .corrupt)

def stored (cursor : BitCursor) (out : ByteArray) : Progress :=
  let start := cursor.align.position / 8
  match littleEndian? cursor.bytes start 2, littleEndian? cursor.bytes (start + 2) 2 with
  | some count, some complement =>
      if count + complement ≠ 65535 then (out, .error .corrupt)
      else
        let content := cursor.bytes.extract (start + 4) (start + 4 + count)
        (out ++ content,
          if content.size = count then .ok { cursor with position := 8 * (start + 4 + count) }
          else .error .short)
  | _, _ => (out, .error .short)

def block (kind : Nat) (cursor : BitCursor) (out : ByteArray) : Progress :=
  match kind with
  | 0 => stored cursor out
  | 1 => coded fixedCodes (cursor.remaining + 1) cursor out
  | 2 =>
      match ownCodes cursor with
      | .ok (codes, cursor) => coded codes (cursor.remaining + 1) cursor out
      | .error lapse => (out, .error lapse)
  | _ => (out, .error .corrupt)

def blockHeader (cursor : BitCursor) : Except Lapse (Bool × Nat × BitCursor) := do
  if cursor.remaining < 10 then .error .short
  let (last, cursor) ← cursor.bit
  let (kind, cursor) ← cursor.bits 2
  .ok (last = 1, kind, cursor)

def blocks : Nat → BitCursor → ByteArray → Progress
  | 0, _, out => (out, .error .short)
  | fuel + 1, cursor, out =>
      match blockHeader cursor with
      | .error lapse => (out, .error lapse)
      | .ok (isLast, kind, cursor) =>
          match block kind cursor out with
          | (out, .ok cursor) => if isLast then (out, .ok cursor) else blocks fuel cursor out
          | stopped => stopped

/-- Two bytes that announce deflated data, with a window of at most 32768 bytes and no bytes known
before. -/
def announces (header : Nat) : Bool :=
  header / 256 % 16 = 8 && header / 4096 ≤ 7 && header / 32 % 2 = 0 && header % 31 = 0

/-- The data behind the two bytes that announce them. Data that end too early give what there is of
them; corrupt data give nothing. -/
def inflate? (bytes : ByteArray) : Option ByteArray :=
  match bigEndian? bytes 0 2 with
  | none => some ByteArray.empty
  | some header =>
      if announces header then
        match blocks (8 * bytes.size) ⟨bytes, 16⟩ ByteArray.empty with
        | (_, .error .corrupt) => none
        | (out, _) => some out
      else none

/-- What data in parts hold, given the last part first. The part in which the data turn out to be
corrupt holds nothing, nor does any part after it. -/
def inflateParts : List ByteArray → ByteArray
  | [] => ByteArray.empty
  | part :: earlier =>
      let packed := (part :: earlier).foldr (fun part packed => packed ++ part) ByteArray.empty
      match inflate? packed with
      | some out => out
      | none => inflateParts earlier

end PaperFolding.Raster.Deflate
