import Gatehouse.Json.Parser
import Gatehouse.Text.Case

/-!
# Requests

A request has a method, a path, headers and perhaps a body. Names of headers do not depend on the
case of ASCII letters. Bytes that are not UTF-8 are no body; what is wrong with them is kept until
a body is set again.
-/

namespace Gatehouse

/-- A request. -/
structure Request where
  /-- The method. -/
  method : String
  /-- The path. -/
  path : String
  /-- The values of the headers under their names in lower case. -/
  headers : Dictionary String := []
  /-- The text of the body. -/
  body : Option String := none
  /-- What was wrong with bytes that were to be the body. -/
  undecodable : Option Utf8.Fault := none
deriving DecidableEq, Repr

/-- Why a request has no JSON to read. -/
inductive BodyError where
  /-- There is no body, or an empty one. -/
  | empty
  /-- The bytes of the body are not UTF-8. -/
  | notUtf8 (fault : Utf8.Fault)
  /-- The body is not JSON. -/
  | notJson (error : Json.Error)

def BodyError.message : BodyError → String
  | .empty => "Empty request body"
  | .notUtf8 fault => "Request body is not valid UTF-8: " ++ fault.message
  | .notJson error => error.message

namespace Request

/-- The request with a value for a header. -/
def insertHeader (r : Request) (name value : String) : Request :=
  { r with headers := r.headers.insert (Text.asciiLower name) value }

/-- The value of a header. -/
def header? (r : Request) (name : String) : Option String :=
  r.headers.find? (Text.asciiLower name)

theorem header?_insertHeader (r : Request) (spelling value name : String) :
    (r.insertHeader spelling value).header? name =
      if Text.asciiLower spelling = Text.asciiLower name then some value else r.header? name := by
  unfold header? insertHeader
  by_cases hname : Text.asciiLower spelling = Text.asciiLower name
  · rw [if_pos hname, ← hname]
    exact Dictionary.find?_insert_self _ _ _
  · rw [if_neg hname]
    exact Dictionary.find?_insert_of_ne _ _ (Ne.symm hname)

/-- The value of the header that names the type of the body. -/
def contentType? (r : Request) : Option String :=
  r.header? "content-type"

/-- The request with a text for its body. -/
def withBody (r : Request) (body : String) : Request :=
  { r with body := some body, undecodable := none }

/-- The request with bytes for its body. Without any byte there is no body. -/
def withBodyBytes (r : Request) (bytes : List UInt8) : Request :=
  match bytes with
  | [] => { r with body := none, undecodable := none }
  | _ :: _ =>
    match Utf8.decode bytes with
    | .ok body => { r with body := some body, undecodable := none }
    | .error fault => { r with body := none, undecodable := some fault }

/-- The request with another body in the place of its body, and nothing else changed: what was
wrong with bytes stays known. -/
def replaceBody (r : Request) (body : Option String) : Request :=
  { r with body := body }

/-- The JSON in the body. -/
def json (r : Request) : Except BodyError Json.Value :=
  match r.undecodable with
  | some fault => .error (.notUtf8 fault)
  | none =>
    match r.body with
    | none => .error .empty
    | some body =>
      if body.isEmpty then .error .empty
      else (Json.parse body).mapError .notJson

end Request

end Gatehouse
