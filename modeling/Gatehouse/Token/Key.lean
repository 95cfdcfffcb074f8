import Gatehouse.Token.Algorithm

/-!
# Keys

The header of a token may carry a key. Nothing is verified with it, but it must be one: an object in
which the fields that any key may have hold what they may hold, and which has, once each, all the
fields of a key of some type. The object is read as a whole before any of its fields is looked at.
-/

namespace Gatehouse.Token.Key

open Json Json.Reader

/-! ## What a field may hold -/

/-- What a field may hold; a fault for any other value. -/
abbrev Check := Value → Except Fault Unit

def text : Check
  | .string _ => .ok ()
  | v => .error (.wrongType v.found "a string")

def texts : Check
  | .array items => items.forM text
  | v => .error (.wrongType v.found "a sequence")

def orNull (check : Check) : Check
  | .null => .ok ()
  | v => check v

/-- One of some names. -/
def known (names : List String) (name : String) : Except Fault Unit :=
  if name ∈ names then .ok () else .error (.unknownVariant name names)

/-- One of some names, or an object with the name as its one key over a value that counts as
nothing. -/
def oneOf (names : List String) (isNothing : Value → Bool) : Check
  | .string name => known names name
  | .object [(name, v)] => do
    known names name
    if isNothing v then return else throw (.wrongType v.found "unit")
  | .object _ => .error (.wrongValue .map "map with a single key")
  | v => .error (.wrongType v.found "string or map")

def isNull : Value → Bool
  | .null => true
  | _ => false

def isNullOrEmpty : Value → Bool
  | .object [] => true
  | v => isNull v

/-! ## Fields -/

/-- A field with what it may hold. -/
structure Field where
  name : String
  check : Check

/-- The algorithms that a key may be for. It may be for more than a token can be signed with. -/
def algorithms : List String :=
  Algorithm.all.map Algorithm.name ++ ["RSA1_5", "RSA-OAEP", "RSA-OAEP-256"]

/-- The fields that any key may have. -/
def commonFields : List Field :=
  [⟨"use", orNull text⟩, ⟨"key_ops", orNull texts⟩,
    ⟨"alg", orNull (oneOf algorithms isNullOrEmpty)⟩, ⟨"kid", orNull text⟩, ⟨"x5u", orNull text⟩,
    ⟨"x5c", orNull texts⟩, ⟨"x5t", orNull text⟩, ⟨"x5t#S256", orNull text⟩]

/-- The field that tells the type of a key. -/
def typeField (name : String) : Field :=
  ⟨"kty", oneOf [name] isNull⟩

def curveField : Field :=
  ⟨"crv", oneOf ["P-256", "P-384", "P-521", "Ed25519"] isNull⟩

/-- The fields that a key of a type must have, for each type. -/
def forms : List (List Field) :=
  [[typeField "EC", curveField, ⟨"x", text⟩, ⟨"y", text⟩],
    [typeField "RSA", ⟨"n", text⟩, ⟨"e", text⟩],
    [typeField "oct", ⟨"k", text⟩],
    [typeField "OKP", curveField, ⟨"x", text⟩]]

/-! ## Members -/

/-- The values of the members with a key. -/
def valuesOf (key : String) (ms : List (String × Value)) : List Value :=
  (ms.filter fun m => m.1 = key).map (·.2)

/-- Checks the fields that any key may have, member by member. The names in `seen` must not come
again. -/
def checkCommon (seen : List String) : List (String × Value) → Except Fault Unit
  | [] => .ok ()
  | (name, v) :: ms =>
    match commonFields.find? (·.name = name) with
    | none => checkCommon seen ms
    | some field =>
      if name ∈ seen then .error (.duplicateField name)
      else do
        field.check v
        checkCommon (name :: seen) ms

/-- Whether members give a field a value that it may hold, and no other. -/
def Field.isFilled (ms : List (String × Value)) (field : Field) : Bool :=
  match valuesOf field.name ms with
  | [v] => (field.check v).isOk
  | _ => false

/-- Whether an object with these members is a key. -/
def checkMembers (ms : List (String × Value)) : Except Fault Unit := do
  checkCommon [] ms
  if forms.any fun fields => fields.all (Field.isFilled ms) then return
  else throw (.noForm "AlgorithmParameters")

/-! ## Reading -/

/-- A key, which is passed over. -/
def reader (room : Nat) : Reader Unit := placed do
  match checkMembers (← membersOf room "struct Jwk" (unmerged (room - 1))) with
  | .ok () => return
  | .error fault => unplaced fault

end Gatehouse.Token.Key
