import FieldGateway.Fault
import FieldGateway.Telemetry.Value

namespace FieldGateway

structure Delivery where
  device : Text
  telemetry : Telemetry
deriving DecidableEq

-- What a driver sees of a message bus: it takes results, and may refuse any of them. Everything
-- that was offered to it is remembered in order.
structure Bus where
  id : Text
  refuses : Delivery → Option Fault
  offered : List Delivery

namespace Bus

def receive (b : Bus) (d : Delivery) : Bus := { b with offered := b.offered ++ [d] }

def taken (b : Bus) : List Delivery := b.offered.filter fun d => (b.refuses d).isNone

def forward (buses : List Bus) (d : Delivery) : List Bus := buses.map (·.receive d)

def forwardAll (buses : List Bus) (ds : List Delivery) : List Bus := ds.foldl forward buses

end Bus
end FieldGateway
