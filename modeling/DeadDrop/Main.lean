import DeadDrop.Server.Arguments

/-!
The command line. It reads the settings of a server from its arguments and the environment and
says where the server would listen, or what is wrong with them.
-/

namespace DeadDrop

def Server.Arguments.Fault.message : Server.Arguments.Fault → String
  | unknown => "unknown argument"
  | unexpectedValue => "a switch takes no value"
  | missingValue => "an option needs a value"
  | repeated => "an option stands twice"
  | value .malformed => "malformed value"
  | value .noChoice => "value is none of the choices"
  | help => "options: " ++ ", ".intercalate (Server.Setting.all.map Server.Setting.name)
  | version => "0.1.0"

def environment : IO (String → Option String) := do
  let pairs ← Server.Setting.all.mapM fun setting => do
    return (setting.variableName, ← IO.getEnv setting.variableName)
  return fun name => (pairs.lookup name).bind id

end DeadDrop

def main (args : List String) : IO UInt32 := do
  match DeadDrop.Server.Settings.ofArguments args (← DeadDrop.environment) with
  | .error fault => IO.eprintln fault.message; return 2
  | .ok settings =>
    match settings.check with
    | .error error => IO.eprintln error.message; return 1
    | .ok () => IO.println settings.endpoint; return 0
