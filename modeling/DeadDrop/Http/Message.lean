import DeadDrop.Bytes

/-!
Requests and responses. Methods and header names are tokens; header values hold no control
character but the tab.
-/

namespace DeadDrop.Http

def tokenMarks : List Char := "!#$%&'*+-.^_`|~".toList

def isTokenChar (c : Char) : Bool :=
  ('0' ≤ c && c ≤ '9') || ('a' ≤ c && c ≤ 'z') || ('A' ≤ c && c ≤ 'Z') || tokenMarks.contains c

def isToken (text : String) : Bool := text ≠ "" && text.toList.all isTokenChar

def isHeaderChar (c : Char) : Bool := c = '\t' || (0x20 ≤ c.toNat && c.toNat ≠ 0x7F)

def isHeaderValue (text : String) : Bool := text.toList.all isHeaderChar

inductive Method where
  | get
  | head
  | post
  | delete
  | options
  | other (name : String)
  deriving DecidableEq

def Method.ofText? (text : String) : Option Method :=
  if isToken text then
    some (if text = "GET" then get
      else if text = "HEAD" then head
      else if text = "POST" then post
      else if text = "DELETE" then delete
      else if text = "OPTIONS" then options
      else other text)
  else none

def Method.text : Method → String
  | get => "GET"
  | head => "HEAD"
  | post => "POST"
  | delete => "DELETE"
  | options => "OPTIONS"
  | other name => name

abbrev Header := String × String

def header? (name value : String) : Option Header :=
  if isToken name && isHeaderValue value then
    some (String.ofList (name.toList.map Char.toLower), value)
  else none

structure Request where
  method : Method
  path : List Char
  headers : List Header
  body : Bytes

/-- The first header of a name counts. -/
def Request.header? (request : Request) (name : String) : Option String :=
  request.headers.lookup name

structure Response where
  status : Nat
  headers : List Header
  body : String
  deriving DecidableEq

end DeadDrop.Http
