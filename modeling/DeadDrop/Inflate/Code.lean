import DeadDrop.Inflate.Bits

/-!
Canonical codes. The lengths of its code words determine a code: words are numbered by length
and, within a length, by symbol. A word is read bit by bit; no word is longer than fifteen bits.
-/

namespace DeadDrop.Inflate

/-- The `counts` say how many words have one bit, two bits and so on; `symbols` are in word
order. -/
structure Code where
  counts : List Nat
  symbols : Array Nat

namespace Code

def longest : Nat := 15

def symbolsOfLength (lengths : List Nat) (length : Nat) : List Nat :=
  lengths.zipIdx.filterMap fun (own, symbol) => if own = length then some symbol else none

def ofLengths (lengths : List Nat) : Code :=
  let groups := (List.range longest).map fun i => symbolsOfLength lengths (i + 1)
  ⟨groups.map List.length, groups.flatten.toArray⟩

def used (code : Code) : Nat := code.symbols.size

/-- The share of the code space that the words take, in units of the longest word. -/
def share (code : Code) : Nat :=
  code.counts.foldl (fun total count => 2 * total + count) 0

def isComplete (code : Code) : Bool := code.share = 1 <<< longest

/-- A code with at most one word may leave space unused. -/
def isUsable (code : Code) : Bool := code.isComplete || code.used ≤ 1

/-- Here `word` is what has been read, `first` the first word of its length, `index` its
position. -/
def decodeFrom (symbols : Array Nat) :
    List Nat → Nat → Nat → Nat → BitCursor → Except Fault (Nat × BitCursor)
  | [], _, _, _, _ => .error .corrupt
  | count :: counts, word, first, index, cursor => do
      let (bit, cursor) ← cursor.bit
      let word := 2 * word + bit
      let first := 2 * first
      if word < first + count then return (symbols.getD (index + (word - first)) 0, cursor)
      else decodeFrom symbols counts word (first + count) (index + count) cursor

def decode (code : Code) (cursor : BitCursor) : Except Fault (Nat × BitCursor) :=
  decodeFrom code.symbols code.counts 0 0 0 cursor

end Code

end DeadDrop.Inflate
