import Gatehouse.Handler

/-!
# Over HTTP

An HTTP request is given to a handler as a `Request`: the path without query and fragment, the
headers whose values are visible ASCII, and the body if it is not too long. Every response allows
every origin, and a request for the options of a resource is answered without looking further.
-/

namespace Gatehouse.Http

/-! ## Requests -/

/-- An HTTP request. -/
structure Request where
  /-- The method. -/
  method : String
  /-- What is asked for: a path, a whole address, or an asterisk. -/
  uri : String
  /-- The names and values of the headers, in order. -/
  headers : List (String × List UInt8)
  /-- The bytes of the body. -/
  body : List UInt8
deriving DecidableEq, Repr

/-- What stands before the query and the fragment. -/
def dropQuery (cs : List Char) : List Char :=
  cs.takeWhile fun c => c != '?' && c != '#'

/-- The characters behind the marks between the scheme and the host of an address. -/
def afterScheme? : List Char → Option (List Char)
  | [] => none
  | ':' :: '/' :: '/' :: rest => some rest
  | _ :: rest => afterScheme? rest

/-- The path in the target of a request. A whole address without a path asks for the root, and a
host alone for nothing. -/
def path (uri : String) : String :=
  let cs := dropQuery uri.toList
  match cs with
  | '/' :: _ => String.ofList cs
  | ['*'] => "*"
  | _ =>
    match afterScheme? cs with
    | none => ""
    | some rest =>
      match rest.dropWhile (· != '/') with
      | [] => "/"
      | path => String.ofList path

/-- Whether a byte may stand in the value of a header that is read as text. -/
def isVisible (b : UInt8) : Bool :=
  (0x20 ≤ b && b ≤ 0x7E) || b == 0x09

/-- The value of a header as text. -/
def headerText? (value : List UInt8) : Option String :=
  if value.all isVisible then some (String.ofList (value.map fun b => Char.ofNat b.toNat))
  else none

/-- A request with one more header, if its value can be read. -/
def addHeader (r : Gatehouse.Request) (header : String × List UInt8) : Gatehouse.Request :=
  match headerText? header.2 with
  | some value => r.insertHeader header.1 value
  | none => r

/-- The request that a handler gets. -/
def Request.toRequest (r : Request) : Gatehouse.Request :=
  (r.headers.foldl addHeader ⟨r.method, path r.uri, [], none, none⟩).withBodyBytes r.body

/-! ## Responses -/

/-- An HTTP response. -/
structure Response where
  /-- The status code. -/
  status : UInt16
  /-- The values of the headers under their names. -/
  headers : Dictionary String
  /-- The text of the body. -/
  body : String
deriving DecidableEq, Repr

/-- The headers of every response: every origin may read it, and it depends on what is asked of
other origins. -/
def sharedHeaders : List (String × String) :=
  [("access-control-allow-origin", "*"),
    ("vary", "origin, access-control-request-method, access-control-request-headers")]

/-- A response with more headers and the length of its body. -/
def withHeaders (more : List (String × String)) (r : Gatehouse.Response) : Response :=
  let length := ("content-length", toString (Utf8.encode r.body).length)
  ⟨r.status, Dictionary.ofList (r.headers ++ length :: sharedHeaders ++ more), r.body⟩

/-- What a handler's response becomes. -/
def ofResponse (r : Gatehouse.Response) : Response :=
  withHeaders [("access-control-expose-headers", "*")] r

/-- The answer to a request for the options of a resource. -/
def options : Response :=
  withHeaders [("access-control-allow-headers", "*"), ("access-control-allow-methods", "*")]
    ⟨200, "", []⟩

/-- The answer to a body that is too long. -/
def tooLarge : Gatehouse.Response :=
  { Gatehouse.Response.ok (Gatehouse.Response.errorText "request body too large") with
    status := 413 }

/-- The event of a body that is too long. -/
def tooLargeEvent : Event :=
  ⟨.warn, "Rejected request body: length limit exceeded", []⟩

/-- The response to an HTTP request whose body may have so many bytes. -/
def serve {σ : Type} (h : Handler σ) (limit : UInt64) (r : Request) : Action σ Response := do
  if r.method == "OPTIONS" then return options
  else if limit.toNat < r.body.length then
    Action.report tooLargeEvent
    return ofResponse tooLarge
  else return ofResponse (← h.respond r.toRequest)

end Gatehouse.Http
