import Std.Time.DateTime.Timestamp
import Gatehouse.Cli.Command
import Gatehouse.Config.Variables

/-!
# The program

Reads the configuration and the clock, carries out the command line, and prints the result or what
went wrong.
-/

namespace Gatehouse.Program

/-- The names of the variables that matter. -/
def variableNames : List String :=
  ["APP_ENV", "DATABASE_URL", "DATABASE_POOL_SIZE", "DATABASE_MAX_RETRIES",
    "DATABASE_ENABLE_QUERY_LOGGING", "API_PORT", "PORT", "API_MAX_REQUEST_SIZE_BYTES",
    "JWT_SECRET", "SECURITY_JWT_EXPIRY_HOURS"]

/-- The variables that matter, as they are set. -/
def readVariables : IO Variables := do
  let values ← variableNames.mapM fun name => do return (name, ← IO.getEnv name)
  return fun name => (values.lookup name).join.map Utf8.encode

/-- How the program is used. -/
def usage : String :=
  "Usage: dispatch [--json] [--secret <SECRET>] <COMMAND>\n\n" ++
    "Commands:\n" ++
    "  token --subject <SUBJECT> [--role <ROLE>] [--hours <HOURS>]\n" ++
    "  verify <TOKEN>\n" ++
    "  help"

/-- The name of the program and its version. -/
def version : String := "dispatch 0.1.0"

/-- Says why a command line is not carried out. -/
def reject : Cli.Rejection → IO Unit
  | .help => IO.println usage
  | .version => IO.println version
  | _ => IO.eprintln usage

/-- Carries out a command line and gives the exit code. -/
def carryOut (args : List String) : IO UInt32 := do
  match Cli.parse args with
  | .error rejection =>
    reject rejection
    return rejection.exitCode
  | .ok arguments =>
    let now ← Std.Time.Timestamp.now
    let config := Config.ofVariables (← readVariables)
    match Cli.run now.toSecondsSinceUnixEpoch.val.toNat config arguments with
    | .error failure =>
      IO.eprintln ("Error: " ++ failure.message)
      return 1
    | .ok text =>
      IO.print text
      return 0

end Gatehouse.Program

/-- Carries out the command line. -/
def main (args : List String) : IO UInt32 :=
  Gatehouse.Program.carryOut args
