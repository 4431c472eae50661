import DeadDrop.Server.Settings

/-!
Settings from a command line, then from the environment, then from the defaults. An option may
have its value in the next argument, and is settled only when that argument has been seen: at the
next option or at the end of the line. So of two faults it can be the second that counts.
-/

namespace DeadDrop.Server

namespace Arguments

inductive Fault where
  | unknown
  | unexpectedValue
  | missingValue
  | repeated
  | value (fault : Settings.Fault)
  | help
  | version
  deriving DecidableEq

/-- The option that waits to be settled, with its value once that has come. -/
structure Pending where
  setting : Setting
  value : Option (List Char)
  deriving DecidableEq

structure Reading where
  settings : Settings
  given : List Setting
  pending : Option Pending
  deriving DecidableEq

def start : Reading := ⟨.standard, [], none⟩

def assign (settings : Settings) (setting : Setting) (value : List Char) :
    Except Fault Settings :=
  (settings.assign value setting).mapError .value

def give (reading : Reading) (setting : Setting) (value : List Char) : Except Fault Reading :=
  if reading.given.contains setting then .error .repeated
  else (assign reading.settings setting value).map fun settings =>
    ⟨settings, setting :: reading.given, none⟩

def settle (reading : Reading) : Except Fault Reading :=
  match reading.pending with
  | none => .ok reading
  | some ⟨_, none⟩ => .error .missingValue
  | some ⟨setting, some value⟩ => give reading setting value

def splitValue (chars : List Char) : List Char × Option (List Char) :=
  match chars.dropWhile (· ≠ '=') with
  | [] => (chars, none)
  | _ :: value => (chars.takeWhile (· ≠ '='), some value)

def query? (name : List Char) : Option Fault :=
  if name = "help".toList then some .help
  else if name = "version".toList then some .version
  else none

def ask (reading : Reading) (fault : Fault) : Except Fault Reading := do
  let _ ← settle reading
  .error fault

def switchOn : List Char := "true".toList

def long (reading : Reading) (chars : List Char) : Except Fault Reading :=
  let (name, value) := splitValue chars
  match query? name, Setting.ofName? name, value with
  | none, none, _ => .error .unknown
  | some _, _, some _ => .error .unexpectedValue
  | some fault, _, none => ask reading fault
  | none, some setting, some value =>
      if setting.isSwitch then .error .unexpectedValue
      else do give (← settle reading) setting value
  | none, some setting, none => do
      let settled ← settle reading
      if setting.isSwitch then give settled setting switchOn
      else return { settled with pending := some ⟨setting, none⟩ }

def short (reading : Reading) : Char → Except Fault Reading
  | 'h' => ask reading .help
  | 'V' => ask reading .version
  | _ => .error .unknown

def plain (reading : Reading) (chars : List Char) : Except Fault Reading :=
  match reading.pending with
  | some ⟨setting, none⟩ => .ok { reading with pending := some ⟨setting, some chars⟩ }
  | _ => .error .unknown

def argument (reading : Reading) : List Char → Except Fault Reading
  | '-' :: '-' :: chars => long reading chars
  | '-' :: letter :: _ => short reading letter
  | chars => plain reading chars

/-- After two dashes nothing more may come. -/
def readLine (reading : Reading) : List (List Char) → Except Fault Reading
  | [] => settle reading
  | [['-', '-']] => settle reading
  | ['-', '-'] :: _ :: _ => .error .unknown
  | chars :: rest => do readLine (← argument reading chars) rest

/-- The environment is asked for what the line has not given. -/
def readVariables (environment : String → Option String) (reading : Reading) :
    Except Fault Settings :=
  Setting.all.foldlM (fun settings setting =>
    match environment setting.variableName with
    | none => .ok settings
    | some value =>
        if reading.given.contains setting then .ok settings
        else assign settings setting value.toList) reading.settings

end Arguments

def Settings.ofArguments (line : List String) (environment : String → Option String) :
    Except Arguments.Fault Settings := do
  let reading ← Arguments.readLine Arguments.start (line.map String.toList)
  Arguments.readVariables environment reading

end DeadDrop.Server
