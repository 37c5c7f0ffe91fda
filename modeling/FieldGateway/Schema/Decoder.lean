import FieldGateway.Schema.Defect

namespace FieldGateway.Schema

-- Whether a value is decoded in its own field, or was taken up before its field was known.
inductive Placement where
  | own
  | shared
deriving DecidableEq

def Found.ofJson (placement : Placement) : Json → Found
  | .null => .null
  | .bool b => .bool b
  | .number n =>
    match placement with
    | .own => .number
    | .shared => match n.guess with
      | .integer i => .integer i
      | .real x => .real x
      | .wide _ | .literal => .map
  | .text t => .text t
  | .array _ => .sequence
  | .object _ => .map

namespace Decoder

def unexpected (placement : Placement) (expected : Text) (given : Json) : Except Defect α :=
  .error (.wrongType (.ofJson placement given) expected)

def text (placement : Placement) : Decoder Text
  | .text t => .ok t
  | given => unexpected placement "a string" given

def bool : Decoder Bool
  | .bool b => .ok b
  | given => unexpected .own "a boolean" given

def unsigned (placement : Placement) (width : Text) (greatest : Nat) : Decoder Nat
  | .number n =>
    match placement with
    | .own => match n.toUnsigned? greatest with
      | some i => .ok i
      | none => .error .unreadableNumber
    | .shared => match n.guess with
      | .integer i =>
        if 0 ≤ i ∧ i ≤ greatest then .ok i.toNat else .error (.outOfRange i width)
      | _ => unexpected placement width (.number n)
  | given => unexpected placement width given

def signed64 : Decoder Int
  | .number n => match n.toSigned? i64Least i64Greatest with
    | some i => .ok i
    | none => .error .unreadableNumber
  | given => unexpected .own "i64" given

-- Numbers too large for a double become infinite here.
def double : Decoder (Binary .double)
  | .number n => .ok (n.toBinary .double)
  | given => unexpected .own "f64" given

def optional (decode : Decoder α) : Decoder (Option α)
  | .null => .ok none
  | given => (decode given).map some

def document : Decoder Json := fun given => .ok given.canonical

def properties : Decoder Json.Fields
  | .object fields => .ok (Json.canonicalFields fields)
  | given => unexpected .own "a map" given

def items (decode : Decoder α) : List Json → Except Defect (List α)
  | [] => .ok []
  | given :: rest =>
    match decode given with
    | .error defect => .error defect
    | .ok item => (items decode rest).map (item :: ·)

def list (decode : Decoder α) : Decoder (List α)
  | .array given => items decode given
  | given => unexpected .own "a sequence" given

def named (choices : List (Text × α)) (name : Text) : Except Defect α :=
  match choices.lookup name with
  | some choice => .ok choice
  | none => .error (.unknownChoice name (choices.map Prod.fst))

-- One of several names, or an object whose only key is that name and whose value is null.
-- A numeral known by its letters only is refused like an object with a foreign key.
def choice (placement : Placement) (choices : List (Text × α)) : Decoder α
  | .text name => named choices name
  | .object [(name, value)] =>
    match named choices name with
    | .error defect => .error defect
    | .ok chosen => if value.isNull then .ok chosen else unexpected placement "unit" value
  | .object _ => .error .notOneKey
  | .number n =>
    match placement, n.guess with
    | .shared, .literal => named choices "$serde_json::private::Number"
    | _, _ => unexpected placement "string or map" (.number n)
  | given => unexpected placement "string or map" given

end Decoder
end FieldGateway.Schema
