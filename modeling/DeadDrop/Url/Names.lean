import DeadDrop.Bytes
import DeadDrop.Text.Blank

/-!
Names of hosts. A name in plain ASCII is the same in lower case. Any other name, and any that says
of itself that it stands for another, goes by rules that need tables of all the letters there are;
those rules are left open, and what is said of addresses is said whatever they are.
-/

namespace DeadDrop.Url

open Text.Blank (splitOn)

/-- The rules for names beyond plain ASCII. From the octets of a name they make what it is in ASCII,
or they refuse it. -/
class Names where
  ascii? : Bytes → Option (List Char)

def asciiChar? (octet : UInt8) : Option Char :=
  if octet < 0x80 then some (Char.ofNat octet.toNat) else none

def lowerName? (octets : Bytes) : Option (List Char) :=
  (octets.mapM asciiChar?).map fun name => name.map Char.toLower

def isStandIn (label : List Char) : Bool := label.take 4 = "xn--".toList

def plainName? (octets : Bytes) : Option (List Char) :=
  (lowerName? octets).filter fun name => (splitOn '.' name).all fun label => !isStandIn label

def asciiName? [Names] (octets : Bytes) : Option (List Char) :=
  (plainName? octets).or (Names.ascii? octets)

/-- Rules without tables: a name that is in ASCII is taken at its word, and no other is known. -/
instance (priority := low) Names.untabled : Names := ⟨lowerName?⟩

end DeadDrop.Url
