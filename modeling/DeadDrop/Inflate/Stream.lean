import DeadDrop.Inflate.Code

/-!
Decompression. A stream is a run of blocks, the last of them marked: stored octets, or literals
and copies from what has been written, coded by the fixed codes or by codes that the block itself
describes. A copy that reaches before the start of the output reads zeros. A second wrapping adds
a two-octet header and a checksum of the output.
-/

namespace DeadDrop.Inflate

abbrev Output := Array UInt8

def lengthBase : Array Nat := #[3, 4, 5, 6, 7, 8, 9, 10, 11, 13, 15, 17, 19, 23, 27, 31, 35, 43,
  51, 59, 67, 83, 99, 115, 131, 163, 195, 227, 258]
def lengthExtra : Array Nat := #[0, 0, 0, 0, 0, 0, 0, 0, 1, 1, 1, 1, 2, 2, 2, 2, 3, 3, 3, 3,
  4, 4, 4, 4, 5, 5, 5, 5, 0]
def distanceBase : Array Nat := #[1, 2, 3, 4, 5, 7, 9, 13, 17, 25, 33, 49, 65, 97, 129, 193, 257,
  385, 513, 769, 1025, 1537, 2049, 3073, 4097, 6145, 8193, 12289, 16385, 24577]
def distanceExtra : Array Nat := #[0, 0, 0, 0, 1, 1, 2, 2, 3, 3, 4, 4, 5, 5, 6, 6, 7, 7, 8, 8,
  9, 9, 10, 10, 11, 11, 12, 12, 13, 13]

def copy (distance : Nat) : Nat → Output → Output
  | 0, out => out
  | more + 1, out =>
      let octet := if distance ≤ out.size then out.getD (out.size - distance) 0 else 0
      copy distance more (out.push octet)

structure Codes where
  literals : Code
  distances : Code

def endOfBlock : Nat := 256

def readCopy (codes : Codes) (symbol : Nat) (cursor : BitCursor) (out : Output) :
    Except Fault (BitCursor × Output) := do
  let index := symbol - 257
  if index ≥ lengthBase.size then .error .corrupt
  else
    let (extra, cursor) ← cursor.bits (lengthExtra.getD index 0)
    let length := lengthBase.getD index 0 + extra
    let (symbol, cursor) ← codes.distances.decode cursor
    if symbol ≥ distanceBase.size then .error .corrupt
    else
      let (extra, cursor) ← cursor.bits (distanceExtra.getD symbol 0)
      return (cursor, copy (distanceBase.getD symbol 0 + extra) length out)

/-- Every symbol takes at least one bit, so the bits left bound their number. -/
def readSymbols (codes : Codes) : Nat → BitCursor → Output → Except Fault (BitCursor × Output)
  | 0, _, _ => .error .incomplete
  | more + 1, cursor, out => do
      let (symbol, cursor) ← codes.literals.decode cursor
      if symbol < endOfBlock then
        readSymbols codes more cursor (out.push (UInt8.ofNat symbol))
      else if symbol = endOfBlock then return (cursor, out)
      else
        let (cursor, out) ← readCopy codes symbol cursor out
        readSymbols codes more cursor out

def fixedCodes : Codes :=
  ⟨.ofLengths (List.replicate 144 8 ++ List.replicate 112 9 ++ List.replicate 24 7
      ++ List.replicate 8 8),
    .ofLengths (List.replicate 32 5)⟩

def lengthOrder : List Nat := [16, 17, 18, 0, 8, 7, 9, 6, 10, 5, 11, 4, 12, 3, 13, 2, 14, 1, 15]

def readThrees : Nat → BitCursor → Except Fault (List Nat × BitCursor)
  | 0, cursor => .ok ([], cursor)
  | more + 1, cursor => do
      let (length, cursor) ← cursor.bits 3
      let (lengths, cursor) ← readThrees more cursor
      return (length :: lengths, cursor)

/-- The lengths so far are in `done`, newest first. Each step adds at least one. -/
def readLengths (code : Code) (wanted : Nat) :
    Nat → List Nat → BitCursor → Except Fault (List Nat × BitCursor)
  | 0, done, cursor => .ok (done.reverse, cursor)
  | more + 1, done, cursor =>
      if done.length = wanted then .ok (done.reverse, cursor)
      else if done.length > wanted then .error .corrupt
      else do
        let (symbol, cursor) ← code.decode cursor
        if symbol < 16 then readLengths code wanted more (symbol :: done) cursor
        else if symbol = 16 then
          match done with
          | [] => .error .corrupt
          | last :: _ =>
              let (extra, cursor) ← cursor.bits 2
              readLengths code wanted more (List.replicate (3 + extra) last ++ done) cursor
        else if symbol = 17 then
          let (extra, cursor) ← cursor.bits 3
          readLengths code wanted more (List.replicate (3 + extra) 0 ++ done) cursor
        else
          let (extra, cursor) ← cursor.bits 7
          readLengths code wanted more (List.replicate (11 + extra) 0 ++ done) cursor

def readCodes (cursor : BitCursor) : Except Fault (Codes × BitCursor) := do
  let (literals, cursor) ← cursor.bits 5
  let (distances, cursor) ← cursor.bits 5
  let (lengths, cursor) ← cursor.bits 4
  let literals := literals + 257
  let distances := distances + 1
  if literals > 286 ∨ distances > 30 then .error .corrupt
  else
    let (threes, cursor) ← readThrees (lengths + 4) cursor
    let named := lengthOrder.zip threes
    let code := Code.ofLengths ((List.range 19).map fun symbol => (named.lookup symbol).getD 0)
    if !code.isComplete then .error .corrupt
    else
      let wanted := literals + distances
      let (all, cursor) ← readLengths code wanted (wanted + 1) [] cursor
      let codes : Codes := ⟨.ofLengths (all.take literals), .ofLengths (all.drop literals)⟩
      if codes.literals.isUsable && codes.distances.isUsable then return (codes, cursor)
      else .error .corrupt

def readStored (cursor : BitCursor) (out : Output) : Except Fault (BitCursor × Output) := do
  let (header, cursor) ← cursor.octets 4
  let length := Bytes.toNat (header.take 2).reverse
  let complement := Bytes.toNat (header.drop 2).reverse
  if length + complement = 0xFFFF then
    let (octets, cursor) ← cursor.octets length
    return (cursor, octets.foldl Array.push out)
  else .error .corrupt

def readBlock (kind : Nat) (cursor : BitCursor) (out : Output) :
    Except Fault (BitCursor × Output) :=
  match kind with
  | 0 => readStored cursor out
  | 1 => readSymbols fixedCodes (cursor.left + 1) cursor out
  | 2 => do
      let (codes, cursor) ← readCodes cursor
      readSymbols codes (cursor.left + 1) cursor out
  | _ => .error .corrupt

/-- Every block takes at least its three header bits. -/
def readBlocks : Nat → BitCursor → Output → Except Fault (BitCursor × Output)
  | 0, _, _ => .error .incomplete
  | more + 1, cursor, out => do
      let (final, cursor) ← cursor.bit
      let (kind, cursor) ← cursor.bits 2
      let (cursor, out) ← readBlock kind cursor out
      if final = 1 then return (cursor, out) else readBlocks more cursor out

def readStream (cursor : BitCursor) : Except Fault (BitCursor × Output) :=
  readBlocks (cursor.left + 1) cursor #[]

def inflate (bytes : Bytes) : Except Fault Bytes := do
  let (_, out) ← readStream (.ofBytes bytes)
  return out.toList

def largestBelow : Nat := 65521

def adler (out : Output) : Nat :=
  let (low, high) := out.foldl
    (fun (low, high) octet =>
      let low := (low + octet.toNat) % largestBelow
      (low, (high + low) % largestBelow))
    (1, 0)
  high * 65536 + low

/-- The method is deflate with a window of at most 32 KiB, no preset dictionary, and a check
value. -/
def isHeader (method flags : UInt8) : Bool :=
  (method.toNat * 256 + flags.toNat) % 31 = 0 && flags &&& 0x20 = 0
    && method.toNat % 16 = 8 && method.toNat / 16 ≤ 7

def inflateWrapped (bytes : Bytes) : Except Fault Bytes :=
  match bytes with
  | method :: flags :: rest =>
      if isHeader method flags then do
        let (cursor, out) ← readStream (.ofBytes rest)
        let (checksum, _) ← cursor.octets 4
        if Bytes.toNat checksum = adler out then return out.toList else .error .corrupt
      else .error .corrupt
  | _ => .error .incomplete

end DeadDrop.Inflate
