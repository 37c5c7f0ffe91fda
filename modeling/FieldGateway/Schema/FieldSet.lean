import FieldGateway.Schema.Decoder

-- Configurations are decoded field by field, and every field is looked at: which of several
-- defects is reported depends on the document's form and not on the order of decoding.
namespace FieldGateway.Schema

inductive Outcome (α : Type) where
  | complete (value : α)
  | broken (defects : List (Text × Defect)) (missing : List Text)

namespace Outcome

def map (f : α → β) : Outcome α → Outcome β
  | complete a => complete (f a)
  | broken defects missing => broken defects missing

def apply : Outcome (α → β) → Outcome α → Outcome β
  | complete f, a => a.map f
  | broken defects missing, complete _ => broken defects missing
  | broken defects missing, broken defects' missing' => broken (defects ++ defects') (missing ++ missing')

end Outcome

structure FieldSet (α : Type) where
  names : List Text
  read : (Text → Option Json) → Outcome α

namespace FieldSet

def field (name : Text) (whenAbsent : Option α) (decode : Decoder α) : FieldSet α where
  names := [name]
  read given := match given name, whenAbsent with
    | some value, _ => match decode value with
      | .ok a => .complete a
      | .error defect => .broken [(name, defect)] []
    | none, some a => .complete a
    | none, none => .broken [] [name]

def required (name : Text) (decode : Decoder α) : FieldSet α := field name none decode
def defaulted (name : Text) (value : α) (decode : Decoder α) : FieldSet α := field name (some value) decode
def optional (name : Text) (decode : Decoder α) : FieldSet (Option α) :=
  field name (some none) decode.optional

def done (a : α) : FieldSet α := ⟨[], fun _ => .complete a⟩

def next (before : FieldSet (α → β)) (fields : FieldSet α) : FieldSet β where
  names := before.names ++ fields.names
  read given := (before.read given).apply (fields.read given)

def earliest : List (Text × Defect) → Option (Text × Defect)
  | [] => none
  | entry :: rest =>
    match earliest rest with
    | some least => if Text.precedes least.1 entry.1 then some least else some entry
    | none => some entry

def atPosition (names : List Text) (items : List Json) (name : Text) : Option Json :=
  (names.zip items).lookup name

-- In an object the defects are ordered by field name, in an array by position. Fields that are
-- missing are reported when the given ones are sound.
def ofObject (s : FieldSet α) (fields : Json.Fields) : Except Defect α :=
  match s.read fun name => Table.get? name fields with
  | .complete a => .ok a
  | .broken defects missing =>
    match earliest defects with
    | some (_, defect) => .error defect
    | none => .error (.missingField (missing.headD []))

def ofArray (title : Text) (s : FieldSet α) (items : List Json) : Except Defect α :=
  match s.read (atPosition s.names items) with
  | .complete a => if s.names.length < items.length then .error (.tooLong items.length) else .ok a
  | .broken ((_, defect) :: _) _ => .error defect
  | .broken [] missing => .error (.tooShort (s.names.idxOf (missing.headD [])) title s.names.length)

def decode (title : Text) (s : FieldSet α) : Decoder α
  | .object fields => ofObject s fields
  | .array items => ofArray title s items
  | given => Decoder.unexpected .own ("struct " ++ title) given

end FieldSet

def written (fields : List (Text × Option Json)) : Json :=
  .object (fields.filterMap fun (name, value) => value.map fun v => (name, v))

end FieldGateway.Schema
