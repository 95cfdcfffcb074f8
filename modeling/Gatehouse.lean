import Gatehouse.Calendar
import Gatehouse.Claims
import Gatehouse.Cli.Arguments
import Gatehouse.Cli.Command
import Gatehouse.Codec.Base64Url
import Gatehouse.Config
import Gatehouse.Config.Json
import Gatehouse.Config.Variables
import Gatehouse.Connection.Action
import Gatehouse.Connection.Backend
import Gatehouse.Connection.Fault
import Gatehouse.Connection.Lifecycle
import Gatehouse.Connection.Statement
import Gatehouse.Decimal.Numeral
import Gatehouse.Decimal.Shortest
import Gatehouse.Denial
import Gatehouse.Dictionary
import Gatehouse.Event
import Gatehouse.Handler
import Gatehouse.Hash.Hmac
import Gatehouse.Hash.Sha256
import Gatehouse.Http
import Gatehouse.Json.Bracketed
import Gatehouse.Json.Byte
import Gatehouse.Json.Cursor
import Gatehouse.Json.Error
import Gatehouse.Json.Lexeme
import Gatehouse.Json.Parser
import Gatehouse.Json.Printer
import Gatehouse.Json.Record
import Gatehouse.Json.Skipper
import Gatehouse.Json.Value
import Gatehouse.Main
import Gatehouse.NewUser
import Gatehouse.Pool
import Gatehouse.Problem
import Gatehouse.Request
import Gatehouse.Response
import Gatehouse.Role
import Gatehouse.Route
import Gatehouse.Session
import Gatehouse.Text.Blank
import Gatehouse.Text.Case
import Gatehouse.Text.Case.Table
import Gatehouse.Text.Cut
import Gatehouse.Text.Printable
import Gatehouse.Text.Quoted
import Gatehouse.Text.Utf8
import Gatehouse.Token.Algorithm
import Gatehouse.Token.Bearer
import Gatehouse.Token.Header
import Gatehouse.Token.Key
import Gatehouse.Token.Screening
import Gatehouse.Token.Signing
import Gatehouse.Token.Validation
import Gatehouse.Proofs.Pool
import Gatehouse.Proofs.Link.Ledger
import Gatehouse.Proofs.Link.Walks
import Gatehouse.Proofs.Session.Steps
import Gatehouse.Proofs.Session.Ledger
import Gatehouse.Proofs.Session.Holders
import Gatehouse.Proofs.Codec.Base64Url
import Gatehouse.Proofs.Json.Grammar
import Gatehouse.Proofs.Json.Reading
import Gatehouse.Proofs.Json.Strings
import Gatehouse.Proofs.Json.Numbers
import Gatehouse.Proofs.Json.Skipping
import Gatehouse.Proofs.Json.Fields
import Gatehouse.Proofs.Token.Issued
import Gatehouse.Proofs.Token.Bearer
import Gatehouse.Proofs.Token.RoundTrip
import Gatehouse.Proofs.Json.Taking
import Gatehouse.Proofs.Token.Payload
import Gatehouse.Proofs.Json.Lexing
import Gatehouse.Proofs.Json.Halting
import Gatehouse.Proofs.Json.Values
import Gatehouse.Proofs.Token.Lenient
import Gatehouse.Proofs.Token.Screened
import Gatehouse.Proofs.Token.ListForm
import Gatehouse.Proofs.Token.KeyForm
import Gatehouse.Proofs.Token.HeaderForm
import Gatehouse.Proofs.Token.Gate
import Gatehouse.Proofs.Decimal.Shortest
import Gatehouse.Proofs.Json.Printed
import Gatehouse.Proofs.Connection.Calls
import Gatehouse.Proofs.Handler.ErrorText
import Gatehouse.Proofs.Handler.Refusals
import Gatehouse.Proofs.Connection.Endings
import Gatehouse.Proofs.Handler.Responses
import Gatehouse.Proofs.Connection.Alike
import Gatehouse.Proofs.Handler.Disclosure
import Gatehouse.Proofs.Json.Figures
import Gatehouse.Proofs.Json.ValueText
import Gatehouse.Proofs.Json.ObjectText
import Gatehouse.Proofs.Handler.Statements
import Gatehouse.Proofs.Connection.Queries
import Gatehouse.Proofs.Session.Admission
import Gatehouse.Proofs.Session.Redaction
import Gatehouse.Proofs.Http.Asked
import Gatehouse.Proofs.Http.Serving
import Gatehouse.Proofs.Json.Compact
import Gatehouse.Proofs.Handler.ReadBack
import Gatehouse.Proofs.Decimal.Numeral
import Gatehouse.Proofs.Config.Overrides
import Gatehouse.Proofs.Config.Readiness
import Gatehouse.Proofs.Connection.Announced
import Gatehouse.Proofs.Session.StatementLog
import Gatehouse.Proofs.Connection.Accounts
import Gatehouse.Proofs.Handler.Containment
import Gatehouse.Proofs.Http.HeaderValues
import Gatehouse.Proofs.Request.Bodies
import Gatehouse.Proofs.Connection.Retries
import Gatehouse.Proofs.Json.Indented
import Gatehouse.Proofs.Cli.Issuing
import Gatehouse.Proofs.Text.Faults
import Gatehouse.Proofs.Request.Bytes
import Gatehouse.Proofs.Token.Missing
import Gatehouse.Proofs.Session.ScopeExit
import Gatehouse.Proofs.Token.Transparent
import Gatehouse.Proofs.Claims.Lifetime
import Gatehouse.Proofs.Text.AsciiCase
import Gatehouse.Proofs.Request.Headers
import Gatehouse.Proofs.Json.Records
import Gatehouse.Proofs.Config.Codec
import Gatehouse.Proofs.Json.Unambiguous
import Gatehouse.Proofs.NewUser
import Gatehouse.Proofs.Text.Spelling
import Gatehouse.Proofs.Route
import Gatehouse.Proofs.Role
