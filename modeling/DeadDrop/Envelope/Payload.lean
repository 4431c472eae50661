import DeadDrop.Bytes

/-!
What goes into an envelope and what comes out of it.
-/

namespace DeadDrop.Envelope

/-- Octets that arrive in reads and may end in a failure instead of an end. Reads that were only
interrupted are made again and leave no trace here. -/
structure Source where
  reads : List Bytes
  failure : Option String

namespace Source

def ofBytes (bytes : Bytes) : Source := ⟨[bytes], none⟩

def contents (source : Source) : Bytes := source.reads.flatten

end Source

/-- Marks the content as a file. The time is in seconds since 1970. -/
structure Hints where
  filename : String
  modified : UInt32
  deriving DecidableEq

structure File where
  filename : String
  modified : Int
  content : Bytes
  deriving DecidableEq

/-- Times before 1970 become 0, times past 32 bits the last one. -/
def File.hints (file : File) : Hints :=
  ⟨file.filename, UInt32.ofNat (min file.modified.toNat (UInt32.size - 1))⟩

structure Decrypted where
  content : Bytes
  filename : Option String
  deriving DecidableEq

structure Randomness where
  salt : Sized 8
  sessionKey : Sized 32
  filler : Sized 16

end DeadDrop.Envelope
