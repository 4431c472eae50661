import DeadDrop.Exchange.Error
import DeadDrop.Text.Blank
import DeadDrop.Url.Parse

/-!
Share links. Everything a link says stands in the fragment of a URL, which no server sees: a tag,
the id of the secret and, unless the key travels another way, the key.
-/

namespace DeadDrop

structure Link.Kind where
  file : Bool
  manualKey : Bool
  deriving DecidableEq

/-- What a link refers to. Id and key are as the link has them and may be neither valid nor
present. -/
structure Link where
  id : String
  key : String
  kind : Link.Kind
  deriving DecidableEq

namespace Link

def Kind.tag : Kind → Char
  | ⟨false, false⟩ => 's'
  | ⟨false, true⟩ => 'c'
  | ⟨true, false⟩ => 'f'
  | ⟨true, true⟩ => 'd'

def Kind.all : List Kind :=
  [⟨false, false⟩, ⟨false, true⟩, ⟨true, false⟩, ⟨true, true⟩]

def Kind.ofTag? (tag : List Char) : Option Kind :=
  all.find? fun kind => tag = [kind.tag]

theorem Kind.ofTag?_tag (kind : Kind) : ofTag? [kind.tag] = some kind := by
  rcases kind with ⟨_ | _, _ | _⟩ <;> decide

def withoutLastSlash (chars : List Char) : List Char :=
  if chars.getLast? = some '/' then chars.dropLast else chars

def writeChars (base id key : List Char) (kind : Kind) : List Char :=
  withoutLastSlash base ++ ['/', '#', '/', kind.tag, '/'] ++ id
    ++ (if kind.manualKey then [] else '/' :: key)

def write (base : String) (link : Link) : String :=
  String.ofList (writeChars base.toList link.id.toList link.key.toList link.kind)

def ofItems? (items : List (List Char)) : Option Link :=
  let link (tag id key : List Char) : Option Link :=
    (Kind.ofTag? tag).map fun kind => ⟨String.ofList id, String.ofList key, kind⟩
  match items with
  | [[], tag, id] => link tag id []
  | [[], tag, id, key] => link tag id key
  | _ => none

/-- Reads a link. Blanks around it do not count, and only the fragment says anything. -/
def parse [Url.Names] (text : String) : Except Exchange.Error Link :=
  let chars := Text.Blank.trim text.toList
  match Url.parseChars chars with
  | .error fault => .error (.address fault.message)
  | .ok url =>
      match ofItems? (Text.Blank.splitOn '/' (url.fragment.getD [])) with
      | some link => .ok link
      | none => .error (.linkKind (String.ofList chars))

end Link

end DeadDrop
