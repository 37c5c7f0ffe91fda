import FieldGateway.OpcUa.NodeId
import FieldGateway.Schema.Device

namespace FieldGateway.OpcUa

structure Request where
  node : NodeId
  handle : Nat
  resource : Resource

inductive AddressingDefect where
  | missingEndpoint (device : Text)
  | missingNode (resource : Text)
  | unreadableNode (given : Text) (defect : NodeIdDefect)
deriving DecidableEq

namespace AddressingDefect

def message : AddressingDefect → Text
  | missingEndpoint device =>
    "endpoint not found in the opcua protocol properties of device " ++ device
  | missingNode resource => "attribute nodeId does not exist on resource " ++ resource
  | unreadableNode given defect => defect.message given

end AddressingDefect

namespace Request

-- Handles begin above those that servers like to use themselves.
def firstHandle : Nat := 42

def ofResource (handle : Nat) (r : Resource) : Except AddressingDefect Request :=
  match r.attribute? "nodeId" with
  | none => .error (.missingNode r.name)
  | some given => match NodeId.read given with
    | .ok node => .ok ⟨node, handle, r⟩
    | .error defect => .error (.unreadableNode given defect)

def ofResources (handle : Nat) : List Resource → Except AddressingDefect (List Request)
  | [] => .ok []
  | r :: rest => match ofResource handle r with
    | .error defect => .error defect
    | .ok request => (ofResources (handle + 1) rest).map (request :: ·)

def ofDevice (d : Device) : Except AddressingDefect (List Request) := ofResources firstHandle d.resources

-- A newer request takes the place of an older one with its handle.
def put (fresh : Request) : List Request → List Request
  | [] => [fresh]
  | r :: rest => if r.handle = fresh.handle then fresh :: rest else r :: put fresh rest

def merge (known fresh : List Request) : List Request := fresh.foldl (fun known r => put r known) known

def find? (handle : Nat) (requests : List Request) : Option Request :=
  requests.find? (·.handle = handle)

end Request

def endpointOf (d : Device) : Except AddressingDefect Text :=
  match (Table.get? "endpoint" d.addressing).bind Json.asText? with
  | some endpoint => .ok endpoint
  | none => .error (.missingEndpoint d.name)

end FieldGateway.OpcUa
