import Gatehouse.Json.Printer

/-!
# Responses

The responses that requests get. Success has a body of JSON and says so in a header; every failure
has a body with one member that tells the error, and no header.
-/

namespace Gatehouse

/-- A response. -/
structure Response where
  /-- The status code. -/
  status : UInt16
  /-- The text of the body. -/
  body : String
  /-- The values of the headers under their names. -/
  headers : Dictionary String
deriving DecidableEq, Repr

namespace Response

/-- The text of an object whose one member tells an error. -/
def errorText (message : String) : String :=
  (Json.Value.object [("error", .string message)]).render

/-- Success, with the text of a JSON value. -/
def ok (body : String) : Response :=
  ⟨200, body, [("content-type", "application/json")]⟩

/-- Nothing is there. -/
def notFound : Response :=
  ⟨404, "\x7b\"error\": \"not found\"\x7d", []⟩

/-- The credential was refused. -/
def unauthorized (message : String) : Response :=
  ⟨401, errorText message, []⟩

/-- Something else went wrong. -/
def internalError (message : String) : Response :=
  ⟨500, errorText message, []⟩

/-- The type of the body. -/
def contentType? (r : Response) : Option String :=
  r.headers.find? "content-type"

end Response

end Gatehouse
