import DeadDrop.Address
import DeadDrop.Url.Names
import DeadDrop.Url.Percent

/-!
Hosts of URLs. A host is a name or an address. A name that ends in a number must be an IPv4
address, in any of its short forms; brackets hold an IPv6 address. The name is what the rules for
names make of it in ASCII; a scheme without special rules takes any name that no delimiter breaks.
-/

namespace DeadDrop.Url

open Address (isDecimal number?)
open Text.Blank (splitOn)

inductive Fault where
  | relative
  | opaqueBase
  | emptyHost
  | hostName
  | hostCharacter
  | port
  | ipv4
  | ipv6
  deriving DecidableEq, Repr

def Fault.message : Fault → String
  | relative => "relative URL without a base"
  | opaqueBase => "relative URL with a cannot-be-a-base base"
  | emptyHost => "empty host"
  | hostName => "invalid international domain name"
  | hostCharacter => "invalid domain character"
  | port => "invalid port number"
  | ipv4 => "invalid IPv4 address"
  | ipv6 => "invalid IPv6 address"

inductive Host where
  | name (chars : List Char)
  | ipv4 (address : Nat)
  | ipv6 (pieces : List Nat)
  deriving DecidableEq, Repr

section Ipv4

/-- A leading 0x makes a part hexadecimal, another leading zero octal. -/
def ipv4Part? : List Char → Option Nat
  | [] => none
  | '0' :: 'x' :: digits => number? 16 digits
  | '0' :: 'X' :: digits => number? 16 digits
  | '0' :: digit :: digits => number? 8 (digit :: digits)
  | digits => number? 10 digits

def withoutLastEmpty (parts : List (List Char)) : List (List Char) :=
  match parts.reverse with
  | [] :: others => others.reverse
  | _ => parts

def endsInNumber (name : List Char) : Bool :=
  match (withoutLastEmpty (splitOn '.' name)).getLast? with
  | none => false
  | some last => (last ≠ [] && last.all isDecimal) || (ipv4Part? last).isSome

/-- The last part fills all octets that the parts before it leave. -/
def ipv4Value? : List Nat → Option Nat
  | [] => none
  | [last] => some last
  | first :: others => if first ≤ 255 then ipv4Value? others else none

def ipv4Weigh : Nat → List Nat → Nat
  | _, [] => 0
  | _, [last] => last
  | weight, first :: others => first <<< (8 * weight) + ipv4Weigh (weight - 1) others

def readIpv4 (name : List Char) : Except Fault Host :=
  let parts := withoutLastEmpty (splitOn '.' name)
  match parts.mapM ipv4Part? with
  | none => .error .ipv4
  | some numbers =>
      match ipv4Value? numbers with
      | none => .error .ipv4
      | some last =>
          if numbers.length ≤ 4 ∧ last < 1 <<< (8 * (5 - numbers.length)) then
            .ok (.ipv4 (ipv4Weigh 3 numbers))
          else .error .ipv4

end Ipv4

def forbidden (c : Char) : Bool :=
  c.toNat = 0 || c = '\t' || c = '\n' || c = '\r' || c = ' ' || c = '#' || c = '/' || c = ':'
    || c = '<' || c = '>' || c = '?' || c = '@' || c = '[' || c = '\\' || c = ']' || c = '^'
    || c = '|'

def readBracketed (chars : List Char) : Except Fault Host :=
  match chars.reverse with
  | ']' :: inner =>
      match Address.v6? inner.reverse with
      | some pieces => .ok (.ipv6 pieces)
      | none => .error .ipv6
  | _ => .error .ipv6

def readName [Names] (chars : List Char) : Except Fault Host :=
  match asciiName? (Percent.decode (chars.flatMap String.utf8EncodeChar)) with
  | none => .error .hostName
  | some name =>
      if name.any fun c => forbidden c || isControl c || c = '%' then .error .hostName
      else if name = [] then .error .emptyHost
      else if endsInNumber name then readIpv4 name
      else .ok (.name name)

def Host.read [Names] (chars : List Char) : Except Fault Host :=
  match chars with
  | '[' :: inside => readBracketed inside
  | _ => readName chars

def Host.readPlain (chars : List Char) : Except Fault Host :=
  match chars with
  | '[' :: inside => readBracketed inside
  | _ =>
      if chars.any forbidden then .error .hostCharacter
      else .ok (.name (Percent.encode isControl chars))

def Host.write : Host → List Char
  | name chars => chars
  | ipv4 address => Address.writeV4 address
  | ipv6 pieces => '[' :: Address.writeV6 pieces ++ [']']

end DeadDrop.Url
