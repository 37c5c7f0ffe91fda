import FieldGateway.Telemetry.Bus

-- Every bus is offered the same, and what it has been offered of one device depends on the
-- deliveries of that device alone.
namespace FieldGateway.Bus

theorem forwardAll_eq (buses : List Bus) (ds : List Delivery) :
    forwardAll buses ds = buses.map fun b => { b with offered := b.offered ++ ds } := by
  induction ds generalizing buses with
  | nil => simp [forwardAll]
  | cons d ds ih =>
    rw [forwardAll, List.foldl_cons, ← forwardAll, ih, forward, List.map_map]
    simp [Function.comp_def, receive]

def heard (name : Text) (b : Bus) : List Delivery := b.offered.filter (·.device = name)

theorem heard_receive (other : d.device ≠ name) (b : Bus) : (b.receive d).heard name = b.heard name := by
  simp [heard, receive, other]

theorem heard_forwardAll (others : ∀ d ∈ ds, d.device ≠ name) :
    (forwardAll buses ds).map (heard name) = buses.map (heard name) := by
  induction ds generalizing buses with
  | nil => rfl
  | cons d ds ih =>
    have later : ∀ d ∈ ds, d.device ≠ name := fun d member => others d (List.mem_cons_of_mem _ member)
    have first : (forward buses d).map (heard name) = buses.map (heard name) := by
      rw [forward, List.map_map]
      exact List.map_congr_left fun b _ => heard_receive (others d List.mem_cons_self) b
    exact (ih later).trans first

end FieldGateway.Bus
