import FieldGateway.Text.Basic

namespace FieldGateway

inductive FaultKind where
  | configInvalid
  | connectionFailure
  | unsupportedValue
  | unknownEntity
  | io
  | serialization
  | timeout
  | other
deriving DecidableEq

namespace FaultKind

def names : List (FaultKind × Text) :=
  [(.configInvalid, "ConfigInvalid"), (.connectionFailure, "ConnectionFailure"),
    (.unsupportedValue, "UnsupportedValue"), (.unknownEntity, "UnknownEntity"), (.io, "Io"),
    (.serialization, "Serialization"), (.timeout, "Timeout"), (.other, "Other")]

def name (kind : FaultKind) : Text := (names.lookup kind).getD []

def ofName? (name : Text) : Option FaultKind := (names.find? (·.2 = name)).map (·.1)

end FaultKind

structure Fault where
  kind : FaultKind
  detail : Text
deriving DecidableEq

namespace Fault

def heading : FaultKind → Text
  | .configInvalid => "invalid configuration: "
  | .connectionFailure => "connection failure: "
  | .unsupportedValue => "unsupported value: "
  | .unknownEntity => "unknown entity: "
  | .io => "I/O error: "
  | .serialization => "serialization error: "
  | .timeout => "timeout: "
  | .other => []

def message (f : Fault) : Text := heading f.kind ++ f.detail

-- These spoil one reading and leave everything else alone.
def perReading (f : Fault) : Bool := f.kind = .unsupportedValue || f.kind = .unknownEntity

def configInvalid (detail : Text) : Fault := ⟨.configInvalid, detail⟩
def connectionFailure (detail : Text) : Fault := ⟨.connectionFailure, detail⟩
def unsupportedValue (detail : Text) : Fault := ⟨.unsupportedValue, detail⟩
def unknownEntity (detail : Text) : Fault := ⟨.unknownEntity, detail⟩
def io (detail : Text) : Fault := ⟨.io, detail⟩
def timeout (detail : Text) : Fault := ⟨.timeout, detail⟩
def other (detail : Text) : Fault := ⟨.other, detail⟩

end Fault

abbrev Attempt (α : Type) := Except Fault α

end FieldGateway
