import DeadDrop.Text.Utf8

/-!
Request targets. Most begin with a slash and are a path with an optional query; an absolute URL
names the path behind its authority; an authority alone has no path. Fragments are dropped.
-/

namespace DeadDrop.Http.Target

def limit : Nat := 65534

def isPathChar (c : Char) : Bool :=
  let n := c.toNat
  n = 0x21 || n = 0x22 || (0x24 ≤ n && n ≤ 0x3B) || n = 0x3D || (0x40 ≤ n && n ≤ 0x5F)
    || (0x61 ≤ n && n ≤ 0x7E) || 0x7F ≤ n

def isQueryChar (c : Char) : Bool :=
  let n := c.toNat
  n = 0x21 || (0x24 ≤ n && n ≤ 0x3B) || n = 0x3D || 0x3F ≤ n

def path? (chars : List Char) : Option (List Char) :=
  let whole := chars.takeWhile (· ≠ '#')
  let path := whole.takeWhile (· ≠ '?')
  let query := (whole.dropWhile (· ≠ '?')).drop 1
  if path.all isPathChar && query.all isQueryChar then some path else none

section Authorities

/-- What has been seen since the last at sign or closing bracket. -/
structure Seen where
  colons : Nat
  percent : Bool
  opened : Bool
  closed : Bool
  endsInAt : Bool

def fresh : Seen := ⟨0, false, false, false, false⟩

def isAuthorityChar (c : Char) : Bool :=
  let n := c.toNat
  n = 0x21 || n = 0x24 || (0x26 ≤ n && n ≤ 0x3B) || n = 0x3D || (0x40 ≤ n && n ≤ 0x5B)
    || n = 0x5D || n = 0x5F || (0x61 ≤ n && n ≤ 0x7A) || n = 0x7E

def see (seen : Seen) (c : Char) : Option Seen :=
  if c = ':' then
    if 8 ≤ seen.colons then none
    else some { seen with colons := seen.colons + 1, endsInAt := false }
  else if c = '[' then
    if seen.percent || seen.opened then none
    else some { seen with opened := true, endsInAt := false }
  else if c = ']' then
    if !seen.opened || seen.closed then none
    else some { seen with closed := true, colons := 0, percent := false, endsInAt := false }
  else if c = '@' then some { seen with colons := 0, percent := false, endsInAt := true }
  else if c = '%' then some { seen with percent := true, endsInAt := false }
  else if isAuthorityChar c then some { seen with endsInAt := false }
  else none

def isAuthority (chars : List Char) : Bool :=
  match chars.foldlM see fresh with
  | none => false
  | some seen =>
      seen.opened == seen.closed && seen.colons ≤ 1 && !seen.endsInAt && !seen.percent

def endsAuthority (c : Char) : Bool := c = '/' || c = '?' || c = '#'

end Authorities

def isSchemeChar (c : Char) : Bool :=
  ('0' ≤ c && c ≤ '9') || ('a' ≤ c && c ≤ 'z') || ('A' ≤ c && c ≤ 'Z') || c = '+' || c = '-'
    || c = '.'

def schemeLimit : Nat := 64

def afterScheme (chars : List Char) : Option (List Char) :=
  match chars.dropWhile isSchemeChar with
  | ':' :: '/' :: '/' :: rest => some rest
  | _ => none

def parse (text : String) : Option (List Char) :=
  let chars := text.toList
  if limit < text.utf8ByteSize then none
  else
    match chars with
    | [] => none
    | ['*'] => some ['*']
    | '/' :: _ => path? chars
    | _ =>
        match afterScheme chars with
        | none => if isAuthority chars then some [] else none
        | some rest =>
            let authority := rest.takeWhile fun c => !endsAuthority c
            let schemeLength := (chars.takeWhile isSchemeChar).length
            if authority = [] || !isAuthority authority || schemeLimit < schemeLength then none
            else
              (path? (rest.dropWhile fun c => !endsAuthority c)).map fun path =>
                if path = [] then ['/'] else path

end DeadDrop.Http.Target
