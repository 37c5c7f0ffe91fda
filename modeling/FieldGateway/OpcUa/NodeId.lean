import FieldGateway.Fault
import FieldGateway.OpcUa.Guid
import FieldGateway.Text.Base64
import FieldGateway.Text.Blank

-- Names of nodes in an address space, written `ns=<namespace>;<kind>=<identifier>`.
namespace FieldGateway.OpcUa

inductive Identifier where
  | numeric (value : Nat)
  | text (value : Text)
  | guid (value : Guid)
  | bytes (value : List Byte)
deriving DecidableEq

structure NodeId where
  namespaceIndex : Nat
  identifier : Identifier
deriving DecidableEq

inductive NodeIdDefect where
  | missingIdentifier
  | unreadableNamespace
  | unreadableNumber
  | unreadableGuid
  | unreadableBytes
  | unknownKind
deriving DecidableEq

namespace NodeIdDefect

def reason : NodeIdDefect → Text
  | missingIdentifier => "missing identifier after namespace"
  | unreadableNamespace => "invalid namespace index"
  | unreadableNumber => "invalid numeric identifier"
  | unreadableGuid | unreadableBytes => "*"
  | unknownKind => "unknown identifier type"

def message (given : Text) (defect : NodeIdDefect) : Text :=
  "invalid node id " ++ Text.trim given ++ ": " ++ defect.reason

end NodeIdDefect

namespace Identifier

def greatestNumber : Nat := 4294967295

def readNumber (t : Text) : Except NodeIdDefect Identifier :=
  match Text.unsigned? 10 greatestNumber t with
  | some n => .ok (.numeric n)
  | none => .error .unreadableNumber

def readGuid (t : Text) : Except NodeIdDefect Identifier :=
  match Guid.read? t with
  | some g => .ok (.guid g)
  | none => .error .unreadableGuid

def readBytes (t : Text) : Except NodeIdDefect Identifier :=
  match Text.ofBase64? t with
  | some bs => .ok (.bytes bs)
  | none => .error .unreadableBytes

def read : Text → Except NodeIdDefect Identifier
  | 'i' :: '=' :: rest => readNumber rest
  | 's' :: '=' :: rest => .ok (.text rest)
  | 'g' :: '=' :: rest => readGuid rest
  | 'b' :: '=' :: rest => readBytes rest
  | _ => .error .unknownKind

def written : Identifier → Text
  | numeric n => "i=" ++ Text.ofNat n
  | text t => "s=" ++ t
  | guid g => "g=" ++ g.text
  | bytes bs => "b=" ++ Text.base64 bs

end Identifier

namespace NodeId

def greatestNamespace : Nat := 65535

def readNamespace (t : Text) : Except NodeIdDefect Nat :=
  match Text.unsigned? 10 greatestNamespace t with
  | some n => .ok n
  | none => .error .unreadableNamespace

-- Blanks around the text do not count. Without a namespace it is namespace zero.
def read (given : Text) : Except NodeIdDefect NodeId :=
  let t := Text.trim given
  match Text.after? "ns=" t with
  | none => (Identifier.read t).map (NodeId.mk 0)
  | some rest => match Text.cutFirst? ';' rest with
    | none => .error .missingIdentifier
    | some (index, identifier) => match readNamespace index with
      | .error defect => .error defect
      | .ok n => (Identifier.read identifier).map (NodeId.mk n)

def text (n : NodeId) : Text :=
  "ns=" ++ Text.ofNat n.namespaceIndex ++ ";" ++ n.identifier.written

def parse (given : Text) : Attempt NodeId :=
  match read given with
  | .ok n => .ok n
  | .error defect => .error (.configInvalid (defect.message given))

end NodeId
end FieldGateway.OpcUa
