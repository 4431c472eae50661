import DeadDrop.Armor.Base64
import DeadDrop.Armor.Checksum
import DeadDrop.Text.Blank
import DeadDrop.Transducer

/-!
Armored text: a begin line, headers, a blank line, base64 lines of 48 octets each, a checksum
line, an end line.

The reader is line by line and lenient about transport: blanks at line ends do not count, text
before and after the frame is skipped, lines may be wrapped anywhere, the checksum may be missing
or stand anywhere in the body, and the last one counts.
-/

namespace DeadDrop.Armor

abbrev Line := List Char

def beginLine : Line := "-----BEGIN PGP MESSAGE-----".toList
def endLine : Line := "-----END PGP MESSAGE-----".toList

def lineOctets : Nat := 48

section Write

structure Pending where
  octets : Bytes
  checksum : Checksum

def headerLine (header : String × String) : Line :=
  header.1.toList ++ ':' :: ' ' :: header.2.toList ++ ['\n']

def bodyLine (octets : Bytes) : Line := Base64.encode .standard octets ++ ['\n']

def fullLines : Nat → Bytes → List Line → List Line × Bytes
  | 0, octets, done => (done.reverse, octets)
  | count + 1, octets, done =>
      fullLines count (octets.drop lineOctets) (bodyLine (octets.take lineOctets) :: done)

def writer (headers : List (String × String)) : Transducer UInt8 Char where
  State := Pending
  start := ⟨[], .initial⟩
  opening := beginLine ++ ['\n'] ++ headers.flatMap headerLine ++ ['\n']
  feed pending chunk :=
    let octets := pending.octets ++ chunk
    let (lines, rest) := fullLines (octets.length / lineOctets) octets []
    (⟨rest, pending.checksum.update chunk⟩, lines.flatten)
  close pending :=
    (if pending.octets = [] then [] else bodyLine pending.octets)
      ++ '=' :: bodyLine pending.checksum.toBytes ++ endLine ++ ['\n']

def write (headers : List (String × String)) (chunks : List Bytes) : List Char :=
  (writer headers).run chunks

end Write

section Read

def holdsHeader : Line → Bool
  | ':' :: ' ' :: _ => true
  | _ :: rest => holdsHeader rest
  | [] => false

/-- Headers run to the first blank line, or to the end of the text. -/
def skipHeaders : List Line → Option (List Line)
  | [] => some []
  | [] :: rest => some rest
  | line :: rest => if holdsHeader line then skipHeaders rest else none

structure Body where
  digits : List Char
  checksum : Option (List Char)

/-- The base64 lines so far are in `pieces`, newest first. -/
def readBody (pieces : List Line) (checksum : Option (List Char)) : List Line → Option Body
  | [] => none
  | line :: rest =>
      if line = endLine then some ⟨pieces.reverse.flatten, checksum⟩
      else match line with
        | '=' :: digits => readBody pieces (some digits) rest
        | _ => readBody (line :: pieces) checksum rest

def agrees (data : Bytes) : Option (List Char) → Bool
  | none => true
  | some digits => Base64.decode? .standard digits = some (Checksum.ofBytes data).toBytes

def decodeLines (lines : List Line) : Option Bytes :=
  match lines.dropWhile (· ≠ beginLine) with
  | [] => none
  | _ :: inside => do
      let body ← skipHeaders inside >>= readBody [] none
      let data ← Base64.decode? .standard body.digits
      if agrees data body.checksum then some data else none

/-- The octets of an armored message, if frame, lines and checksum are sound. -/
def decode? (text : List Char) : Option Bytes :=
  decodeLines ((Text.Blank.lines text).map Text.Blank.trimEnd)

end Read

end DeadDrop.Armor
