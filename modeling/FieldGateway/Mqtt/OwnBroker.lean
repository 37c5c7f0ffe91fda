import FieldGateway.Network.Address

-- The broker that a bus without a host runs by itself. Nothing ever stops to listen at an
-- address before the program ends, so closing a broker only means that its owner forgets it.
namespace FieldGateway.Mqtt

structure OwnBroker where
  address : Network.Address
  running : Bool
deriving DecidableEq

abbrev Listeners := List Network.Address

namespace OwnBroker

def startLimit : Duration := .ofMilliseconds 5000

def create (address : Network.Address) : OwnBroker := ⟨address, false⟩

-- An address that is taken already is taken to have a broker. `listens` says whether a new
-- broker comes to take connections in time; one that does not is taken to have ended.
def start (b : OwnBroker) (listeners : Listeners) (listens : Bool) : OwnBroker × Listeners × Attempt Unit :=
  if b.running then (b, listeners, .ok ())
  else if b.address ∈ listeners then ({ b with running := true }, listeners, .ok ())
  else if listens then ({ b with running := true }, b.address :: listeners, .ok ())
  else (b, listeners, .error (Network.notListening b.address.text startLimit))

def close (b : OwnBroker) : OwnBroker := { b with running := false }

end OwnBroker
end FieldGateway.Mqtt
