import DeadDrop.Url.Host

/-!
URLs in their normal form. The path is a list of segments, or one opaque text where no slash
follows the scheme; an opaque URL has no authority and nothing can be resolved against it.
-/

namespace DeadDrop

namespace Url

inductive Path where
  | segments (items : List (List Char))
  | rootless (chars : List Char)
  deriving DecidableEq, Repr

structure Authority where
  user : List Char
  password : List Char
  host : Host
  port : Option Nat
  deriving DecidableEq, Repr

end Url

structure Url where
  scheme : List Char
  authority : Option Url.Authority
  path : Url.Path
  query : Option (List Char)
  fragment : Option (List Char)
  deriving DecidableEq, Repr

namespace Url

def isFile (scheme : List Char) : Bool := scheme = "file".toList

def defaultPorts : List (List Char × Nat) :=
  [("http".toList, 80), ("https".toList, 443), ("ws".toList, 80), ("wss".toList, 443),
    ("ftp".toList, 21)]

def defaultPort? (scheme : List Char) : Option Nat := defaultPorts.lookup scheme

/-- Special schemes always have a host and take a backslash for a slash. -/
def isSpecial (scheme : List Char) : Bool := isFile scheme || (defaultPort? scheme).isSome

section Write

def Authority.write (authority : Authority) : List Char :=
  let user := authority.user
    ++ (if authority.password = [] then [] else ':' :: authority.password)
  (if user = [] then [] else user ++ ['@']) ++ authority.host.write
    ++ (match authority.port with
      | some port => ':' :: Address.writeDecimal port
      | none => [])

def Path.write : Path → List Char
  | segments items => items.flatMap fun item => '/' :: item
  | rootless chars => chars

/-- Without an authority, a path that begins with two slashes would be taken for one. -/
def pathGuard (url : Url) : List Char :=
  match url.authority, url.path with
  | none, .segments ([] :: _ :: _) => ['/', '.']
  | _, _ => []

def writeOptional (mark : Char) : Option (List Char) → List Char
  | some chars => mark :: chars
  | none => []

def write (url : Url) : List Char :=
  url.scheme ++ ':' :: (match url.authority with
      | some authority => '/' :: '/' :: authority.write
      | none => [])
    ++ pathGuard url ++ url.path.write ++ writeOptional '?' url.query
    ++ writeOptional '#' url.fragment

def text (url : Url) : String := String.ofList url.write

end Write

end Url

end DeadDrop
