import DeadDrop.Http.Message

/-!
Content types. A type is two tokens around a slash, followed by parameters; the part of the
second token after its last plus sign is a suffix that names a syntax.
-/

namespace DeadDrop.Http.MediaType

def isNameChar (c : Char) : Bool := isTokenChar c && c ≠ '*'

def isVisible (c : Char) : Bool := c = '\t' || (0x20 ≤ c.toNat && c.toNat < 0x7F)

section Parameters

def afterQuote : List Char → Option (List Char)
  | [] => none
  | c :: rest => if isHeaderChar c && c ≠ '\t' then closing rest else none
where
  closing : List Char → Option (List Char)
    | [] => none
    | c :: rest =>
        if c = '"' then some rest
        else if isHeaderChar c && c ≠ '\t' then closing rest
        else none

def afterBlanks : List Char → Option (List Char)
  | [] => some []
  | c :: rest => if c = ';' then some rest else if c = ' ' then afterBlanks rest else none

def afterValue (chars : List Char) : Option (List Char) :=
  match chars with
  | '"' :: rest => afterQuote rest >>= afterBlanks
  | _ =>
      match chars.dropWhile isNameChar with
      | [] => some []
      | ';' :: rest => if chars.takeWhile isNameChar = [] then none else some rest
      | _ => none

def afterParameter (chars : List Char) : Option (List Char) :=
  match chars.dropWhile isNameChar with
  | '=' :: rest => if chars.takeWhile isNameChar = [] then none else afterValue rest
  | _ => none

def areParameters : Nat → List Char → Bool
  | _, [] => true
  | 0, _ => false
  | more + 1, ' ' :: rest => areParameters more rest
  | more + 1, chars =>
      match afterParameter chars with
      | some rest => areParameters more rest
      | none => false

end Parameters

structure Essence where
  kind : List Char
  subtype : List Char
  suffix : Option (List Char)

/-- The first character of a subtype is never taken for a plus sign. -/
def splitSuffix (chars : List Char) : List Char × Option (List Char) :=
  match chars.reverse.dropWhile (· ≠ '+') with
  | _ :: first :: front =>
      ((first :: front).reverse, some (chars.reverse.takeWhile (· ≠ '+')).reverse)
  | _ => (chars, none)

def parse (text : String) : Option Essence :=
  let lower := text.toList.map Char.toLower
  let kind := lower.takeWhile isNameChar
  match lower.dropWhile isNameChar with
  | '/' :: rest =>
      let name := rest.takeWhile isNameChar
      let (subtype, suffix) := splitSuffix name
      let essence : Essence := ⟨kind, subtype, suffix⟩
      if kind = [] then none
      else
        match rest.dropWhile isNameChar with
        | [] => some essence
        | ';' :: parameters =>
            if name ≠ [] && areParameters parameters.length parameters then some essence else none
        | _ => none
  | _ => none

def Essence.isJson (essence : Essence) : Bool :=
  essence.kind = "application".toList
    && (essence.subtype = "json".toList || essence.suffix = some "json".toList)

def isJson (value : String) : Bool :=
  value.toList.all isVisible && ((parse value).map Essence.isJson).getD false

end DeadDrop.Http.MediaType
