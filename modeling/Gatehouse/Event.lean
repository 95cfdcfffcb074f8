/-!
# Events

What the library reports of its work: a message with a level and named fields.
-/

namespace Gatehouse

/-- How much an event matters. -/
inductive Level where
  | error
  | warn
  | info
  | debug
deriving DecidableEq, Repr

/-- An event. -/
structure Event where
  /-- How much it matters. -/
  level : Level
  /-- What happened. -/
  message : String
  /-- What it happened to. -/
  fields : List (String × String)
deriving DecidableEq, Repr

end Gatehouse
