import FieldGateway.Plan
import FieldGateway.Rack

-- A gateway comes up according to its plan, serves until it is told to stop, and takes
-- everything down again.
namespace FieldGateway

structure Outcomes where
  bus : Nat → BusSpec → Made
  driver : Nat → DriverSpec → Made
  device : Nat → DriverUnit → Device → Attempt Unit

structure Offer where
  driver : DriverUnit
  device : Device
  answer : Attempt Unit

structure Startup where
  rack : Rack
  offers : List Offer
  failure : Option Failure

namespace Startup

def installEach (r : Rack) : List (DriverSpec × Made) → Rack × Attempt Unit
  | [] => (r, .ok ())
  | (spec, make) :: rest =>
    match r.install spec make with
    | (r, .ok ()) => installEach r rest
    | (r, .error fault) => (r, .error fault)

-- A device without a driver is left out, and one that its driver refuses troubles nobody else.
def offersOf (r : Rack) (outcome : Nat → DriverUnit → Device → Attempt Unit) (devices : List Device) :
    List Offer :=
  devices.zipIdx.filterMap fun (device, place) =>
    (r.driver? device.driverType).map fun driver => ⟨driver, device, outcome place driver device⟩

def ofPlan (r : Rack) (plan : Plan) (outcomes : Outcomes) : Startup :=
  match r.start (plan.buses.zipIdx.map fun (spec, place) => (spec, outcomes.bus place spec)) with
  | (r, .error fault) => ⟨r, [], some (.fault fault)⟩
  | (r, .ok ()) =>
    match installEach r (plan.drivers.zipIdx.map fun (spec, place) => (spec, outcomes.driver place spec)) with
    | (r, .error fault) => ⟨r, [], some (.fault fault)⟩
    | (r, .ok ()) => ⟨r, offersOf r outcomes.device plan.devices, none⟩

-- Nothing is started before all files have been read.
def run (disk : Disk) (directory : Text) (outcomes : Outcomes) : Startup :=
  match Plan.load disk directory with
  | .error failure => ⟨.empty, [], some failure⟩
  | .ok plan => ofPlan .empty plan outcomes

def serves (s : Startup) : Bool := s.failure.isNone

def finish (s : Startup) : Rack := s.rack.stop

end Startup
end FieldGateway
