import DeadDrop.Packet.Cursor
import DeadDrop.Transducer

/-!
Packets: a tag and a body. Both header formats are read, with definite, partial and indeterminate
lengths. Writing always uses the new format: a whole body with its shortest definite length, or a
body of unknown length in partial segments of 8192 octets and one definite segment at the end.
-/

namespace DeadDrop

structure Packet where
  tag : UInt8
  body : Bytes
  deriving DecidableEq

namespace Packet

open Envelope (Error)

namespace Tag

def publicKeySession : UInt8 := 1
def sessionKey : UInt8 := 3
def compressed : UInt8 := 8
def unprotected : UInt8 := 9
def marker : UInt8 := 10
def literal : UInt8 := 11
def protectedData : UInt8 := 18

end Tag

section Read

/-- One segment of a new-format body; `last` tells whether it ends the body. -/
structure Segment where
  octets : Bytes
  last : Bool

def readSegment (cursor : Cursor) : Except Error (Segment × Cursor) := do
  let (first, cursor) ← cursor.octet
  if first < 192 then
    let (octets, cursor) ← cursor.take first.toNat
    return (⟨octets, true⟩, cursor)
  else if first < 224 then
    let (second, cursor) ← cursor.octet
    let (octets, cursor) ← cursor.take ((first.toNat - 192) * 256 + second.toNat + 192)
    return (⟨octets, true⟩, cursor)
  else if first = 255 then
    let (length, cursor) ← cursor.number 4
    let (octets, cursor) ← cursor.take length
    return (⟨octets, true⟩, cursor)
  else
    let (octets, cursor) ← cursor.take (1 <<< (first.toNat % 32))
    return (⟨octets, false⟩, cursor)

/-- Each segment takes at least its length octet, so the text left bounds their number. -/
def readSegments : Nat → List Bytes → Cursor → Except Error (Bytes × Cursor)
  | 0, _, _ => .error (.malformed (.truncated 1))
  | more + 1, pieces, cursor => do
      let (segment, cursor) ← readSegment cursor
      let pieces := segment.octets :: pieces
      if segment.last then return (pieces.reverse.flatten, cursor)
      else readSegments more pieces cursor

def readNewBody (cursor : Cursor) : Except Error (Bytes × Cursor) :=
  readSegments (cursor.rest.length + 1) [] cursor

def readOldBody (kind : UInt8) (cursor : Cursor) : Except Error (Bytes × Cursor) :=
  if kind = 0 then do
    let (length, cursor) ← cursor.octet
    cursor.take length.toNat
  else if kind = 1 then do
    let (high, cursor) ← cursor.octet
    let (low, cursor) ← cursor.octet
    cursor.take (high.toNat * 256 + low.toNat)
  else if kind = 2 then do
    let (length, cursor) ← cursor.number 4
    cursor.take length
  else .ok cursor.remainder

def readOne (cursor : Cursor) : Except Error (Packet × Cursor) := do
  let (header, cursor) ← cursor.octet
  if header &&& 0x80 = 0 then .error (.malformed (.header header))
  else if header &&& 0x40 ≠ 0 then
    let (body, cursor) ← readNewBody cursor
    return (⟨header &&& 0x3F, body⟩, cursor)
  else
    let (body, cursor) ← readOldBody (header &&& 0x03) cursor
    return (⟨(header >>> 2) &&& 0x0F, body⟩, cursor)

def readMany : Nat → List Packet → Cursor → Except Error (List Packet)
  | 0, done, _ => .ok done.reverse
  | more + 1, done, cursor =>
      if cursor.isEmpty then .ok done.reverse
      else do
        let (packet, cursor) ← readOne cursor
        readMany more (packet :: done) cursor

def readAll (data : Bytes) : Except Error (List Packet) := readMany data.length [] ⟨data⟩

end Read

section Write

/-- The five-octet form keeps the low 32 bits. -/
def definiteLength (length : Nat) : Bytes :=
  if length < 192 then [UInt8.ofNat length]
  else if length < 8384 then
    [UInt8.ofNat ((length - 192) / 256 + 192), UInt8.ofNat ((length - 192) % 256)]
  else 255 :: Bytes.ofNat 4 length

def write (packet : Packet) : Bytes :=
  (0xC0 ||| packet.tag) :: definiteLength packet.body.length ++ packet.body

def chunkSize : Nat := 8192

def chunkLength : UInt8 := 0xED

structure Unsent where
  octets : Bytes
  headerSent : Bool

def header (tag : UInt8) (unsent : Unsent) : Bytes :=
  if unsent.headerSent then [] else [0xC0 ||| tag]

/-- Strictly more than a chunk must wait before one is sent: the last segment carries the tail. -/
def sendChunks (tag : UInt8) : Nat → List Bytes → Unsent → List Bytes × Unsent
  | 0, pieces, unsent => (pieces, unsent)
  | count + 1, pieces, unsent =>
      let piece := header tag unsent ++ chunkLength :: unsent.octets.take chunkSize
      sendChunks tag count (piece :: pieces) ⟨unsent.octets.drop chunkSize, true⟩

/-- A packet whose body arrives in chunks and goes out in segments of one size and a rest. -/
def partialWriter (tag : UInt8) : Transducer UInt8 UInt8 where
  State := Unsent
  start := ⟨[], false⟩
  opening := []
  feed unsent chunk :=
    let waiting := unsent.octets ++ chunk
    let count := (waiting.length - 1) / chunkSize
    let (pieces, unsent) := sendChunks tag count [] ⟨waiting, unsent.headerSent⟩
    (unsent, pieces.reverse.flatten)
  close unsent :=
    header tag unsent ++ definiteLength unsent.octets.length ++ unsent.octets

end Write

end Packet

end DeadDrop
