import Gatehouse.Cli.Arguments
import Gatehouse.Config
import Gatehouse.Token.Validation

/-!
# Carrying out a command

The two commands print what they have made or found, or fail and print nothing.
-/

namespace Gatehouse.Cli

/-- Why a command failed: the causes in words, the outermost first. -/
structure Failure where
  /-- What failed. -/
  message : String
  /-- What was behind it. -/
  causes : List String
deriving DecidableEq, Repr

/-- Every cause of a failure, the outermost first. -/
def Failure.chain (f : Failure) : List String :=
  f.message :: f.causes

/-- The text of a new token. -/
def renderIssued (format : Format) (token : String) (claims : Claims) : String :=
  match format with
  | .text => token ++ "\n"
  | .json =>
    (Json.Value.ordered [("token", .string token), ("claims", .ordered claims.members)]).render ++
      "\n"

/-- The text of the claims of a token. -/
def renderClaims (format : Format) (claims : Claims) : String :=
  match format with
  | .text =>
    "subject: " ++ claims.sub ++ "\nrole: " ++ claims.role.name ++ "\nexpires: " ++
      toString claims.exp.toInt ++ "\n"
  | .json => claims.toJson.renderIndented ++ "\n"

/-- Issues a token. -/
def issue (now : Nat) (secret subject role : String) (hours : UInt64) (format : Format) :
    Except Failure String := do
  let role ← (Role.ofText role).mapError fun e => ⟨e.message, []⟩
  let claims ← (Claims.issue now subject role hours).mapError fun e => ⟨e.message, []⟩
  let token ← (Token.sign claims secret).mapError fun e => ⟨"failed to sign token", [e.message]⟩
  return renderIssued format token claims

/-- Checks a token. -/
def verify (now : Nat) (secret token : String) (format : Format) : Except Failure String := do
  let claims ← (Token.validate now token secret).mapError fun e =>
    ⟨e.message ++ " (" ++ e.reason.code ++ ")", []⟩
  return renderClaims format claims

/-- Carries out a command line and gives what is to be printed. What the command line leaves open
the configuration says. -/
def run (now : Nat) (config : Config) (args : Arguments) : Except Failure String :=
  let secret := args.secret.getD config.security.secret
  match args.command with
  | .token subject role hours =>
    issue now secret subject role (hours.getD config.security.lifetimeHours) args.format
  | .verify token => verify now secret token args.format

end Gatehouse.Cli
