import DeadDrop.Url.Basic

/-!
Reading URLs. Blanks and controls at both ends and line breaks and tabs anywhere are dropped
first. A scheme decides the rest: file, another special scheme, or any other. Dot segments of a
path are resolved while it is read.
-/

namespace DeadDrop.Url

open Address (isDecimal)
open Text.Blank (splitOn)

def isAsciiLetter (c : Char) : Bool := ('a' ≤ c && c ≤ 'z') || ('A' ≤ c && c ≤ 'Z')

def isSchemeChar (c : Char) : Bool :=
  isAsciiLetter c || isDecimal c || c = '+' || c = '-' || c = '.'

def isEdge (c : Char) : Bool := c.toNat ≤ 0x20

def isBreak (c : Char) : Bool := c = '\t' || c = '\n' || c = '\r'

def trimEdges (chars : List Char) : List Char :=
  ((chars.dropWhile isEdge).reverse.dropWhile isEdge).reverse

def cleaned (chars : List Char) : List Char := (trimEdges chars).filter fun c => !isBreak c

def splitScheme (chars : List Char) : Option (List Char × List Char) :=
  match chars with
  | [] => none
  | first :: _ =>
      if isAsciiLetter first then
        match chars.dropWhile isSchemeChar with
        | ':' :: rest => some ((chars.takeWhile isSchemeChar).map Char.toLower, rest)
        | _ => none
      else none

section Tail

structure Parts where
  path : List Char
  query : Option (List Char)
  fragment : Option (List Char)

def cut (mark : Char) (chars : List Char) : List Char × Option (List Char) :=
  match chars.dropWhile (· ≠ mark) with
  | [] => (chars, none)
  | _ :: rest => (chars.takeWhile (· ≠ mark), some rest)

def parts (special : Bool) (chars : List Char) : Parts :=
  let (front, fragment) := cut '#' chars
  let (path, query) := cut '?' front
  ⟨path, query.map (Percent.encode (escapedInQuery special)),
    fragment.map (Percent.encode escapedInFragment)⟩

end Tail

section Paths

def isDot (item : List Char) : Bool := item = ['.'] || item.map Char.toLower = "%2e".toList

def isDoubleDot (item : List Char) : Bool :=
  ["..".toList, "%2e.".toList, ".%2e".toList, "%2e%2e".toList].contains (item.map Char.toLower)

def isDrive : List Char → Bool
  | [letter, mark] => isAsciiLetter letter && (mark = ':' || mark = '|')
  | _ => false

def isNormalDrive (item : List Char) : Bool := isDrive item && item.getLast? = some ':'

/-- The segments so far are in `done`, last first. A drive of a file is never left. -/
def shorten (file : Bool) : List (List Char) → List (List Char)
  | [] => []
  | last :: others => if file && isNormalDrive last then last :: others else others

def normalItem (file : Bool) (done : List (List Char)) (item : List Char) : List Char :=
  let encoded := Percent.encode escapedInPath item
  if file && done.isEmpty && isDrive item then
    match item with
    | letter :: _ => [letter, ':']
    | [] => encoded
  else encoded

def walk (file : Bool) : List (List Char) → List (List Char) → List (List Char)
  | done, [] => done
  | done, [last] =>
      if isDoubleDot last then [] :: shorten file done
      else if isDot last then [] :: done
      else normalItem file done last :: done
  | done, item :: rest =>
      if isDoubleDot item then walk file (shorten file done) rest
      else if isDot item then walk file done rest
      else walk file (normalItem file done item :: done) rest

def slashed (special : Bool) (chars : List Char) : List Char :=
  if special then chars.map fun c => if c = '\\' then '/' else c else chars

def withoutSlash : List Char → List Char
  | '/' :: rest => rest
  | chars => chars

/-- The text may begin with the slash of its first segment. -/
def readItems (special file : Bool) (chars : List Char) : List (List Char) :=
  (walk file [] (splitOn '/' (withoutSlash (slashed special chars)))).reverse

def withoutLeadingEmpty : List (List Char) → List (List Char)
  | [] :: next :: rest => withoutLeadingEmpty (next :: rest)
  | items => items

end Paths

section Authorities

def endsAuthority (special : Bool) (c : Char) : Bool :=
  c = '/' || c = '?' || c = '#' || (special && c = '\\')

def splitUser (chars : List Char) : Option (List Char × List Char) :=
  match chars.reverse.dropWhile (· ≠ '@') with
  | [] => none
  | _ :: user => some (user.reverse, (chars.reverse.takeWhile (· ≠ '@')).reverse)

/-- A colon outside brackets ends the host. -/
def splitPort : Bool → List Char → List Char × Option (List Char)
  | _, [] => ([], none)
  | inside, c :: rest =>
      if c = ':' ∧ inside = false then ([], some rest)
      else
        let (host, port) := splitPort (if c = '[' then true else if c = ']' then false else inside) rest
        (c :: host, port)

def portValue : Nat → List Char → Except Fault (Nat × List Char)
  | value, [] => .ok (value, [])
  | value, c :: rest =>
      if isDecimal c then
        let next := value * 10 + (c.toNat - 48)
        if 65535 < next then .error .port else portValue next rest
      else if c = '\\' then .ok (value, c :: rest)
      else .error .port

structure Front where
  authority : Authority
  rest : List Char

def readPort (scheme : List Char) (chars : List Char) : Except Fault (Option Nat × List Char) := do
  let (value, rest) ← portValue 0 chars
  let given := (chars.takeWhile isDecimal) ≠ []
  return (if given ∧ defaultPort? scheme ≠ some value then some value else none, rest)

def readHost [Names] (special : Bool) (chars : List Char) : Except Fault Host :=
  if special then if chars = [] then .error .emptyHost else Host.read chars
  else Host.readPlain chars

/-- After the two slashes of any scheme but file. -/
def readAuthority [Names] (scheme : List Char) (chars : List Char) : Except Fault Front := do
  let special := isSpecial scheme
  let ends := endsAuthority special
  let whole := chars.takeWhile fun c => !ends c
  let after := chars.dropWhile fun c => !ends c
  let (user, hostAndPort) := (splitUser whole).getD ([], whole)
  if (splitUser whole).isSome ∧ hostAndPort = [] ∧ after ≠ [] ∧ user = [] then
    throw .emptyHost
  let (name, password) := cut ':' user
  let escape := Percent.encode escapedInUser
  let (hostChars, port) := splitPort false hostAndPort
  let host ← readHost special hostChars
  if host = .name [] ∧ port.isSome then throw .emptyHost
  let (port, left) ← match port with
    | some digits => readPort scheme digits
    | none => pure (none, [])
  let authority : Authority := ⟨escape name, escape (password.getD []), host, port⟩
  if host = .name [] ∧ (authority.user ≠ [] ∨ authority.password ≠ []) then throw .emptyHost
  return ⟨authority, left ++ after⟩

end Authorities

section Whole

def anonymous (host : Host) : Authority := ⟨[], [], host, none⟩

def withAuthority [Names] (scheme : List Char) (chars : List Char) : Except Fault Url := do
  let special := isSpecial scheme
  let front ← readAuthority scheme chars
  let tail := parts special front.rest
  let items := if !special && tail.path = [] then [] else readItems special false tail.path
  return ⟨scheme, some front.authority, .segments items, tail.query, tail.fragment⟩

def fileUrl (host : Host) (tail : Parts) : Url :=
  let items := readItems true true tail.path
  let host := if (items.head?.map isNormalDrive).getD false then .name [] else host
  ⟨"file".toList, some (anonymous host), .segments (withoutLeadingEmpty items), tail.query,
    tail.fragment⟩

def endsFileHost (c : Char) : Bool := c = '/' || c = '\\' || c = '?' || c = '#'

def readFile [Names] (chars : List Char) : Except Fault Url :=
  match slashed true (chars.take 2) with
  | ['/', '/'] => do
      let chars := chars.drop 2
      let name := chars.takeWhile fun c => !endsFileHost c
      if name = [] ∨ isDrive name then return fileUrl (.name []) (parts true chars)
      let host ← Host.read name
      let rest := chars.dropWhile fun c => !endsFileHost c
      let host := if host = .name "localhost".toList then .name [] else host
      return fileUrl host (parts true rest)
  | _ => .ok (fileUrl (.name []) (parts true chars))

def readOther [Names] (scheme : List Char) (chars : List Char) : Except Fault Url :=
  match chars with
  | '/' :: '/' :: rest => withAuthority scheme rest
  | '/' :: rest =>
      let tail := parts false ('/' :: rest)
      .ok ⟨scheme, none, .segments (readItems false false tail.path), tail.query, tail.fragment⟩
  | _ =>
      let tail := parts false chars
      .ok ⟨scheme, none, .rootless (Percent.encode isControl tail.path), tail.query,
        tail.fragment⟩

def isSlash (c : Char) : Bool := c = '/' || c = '\\'

def parseChars [Names] (chars : List Char) : Except Fault Url :=
  match splitScheme (cleaned chars) with
  | none => .error .relative
  | some (scheme, rest) =>
      if isFile scheme then readFile rest
      else if isSpecial scheme then withAuthority scheme (rest.dropWhile isSlash)
      else readOther scheme rest

def parse [Names] (text : String) : Except Fault Url := parseChars text.toList

end Whole

end DeadDrop.Url
