import FieldGateway.Main
import FieldGateway.Proofs.Rack.Installing
import FieldGateway.Proofs.Startup

-- What is found out about a plan without connecting anywhere: whether each of its buses and
-- drivers can be made, and if not, which is the first one that cannot.
namespace FieldGateway

namespace Catalog

variable {fault : Fault} {properties : Json.Fields}

theorem bus?_made_iff {spec : BusSpec} : bus? spec = .ok (some kind) ↔
    spec.enabled = true ∧ busTypes.lookup spec.type = some kind ∧
      ∃ bus, Mqtt.Publisher.ofProperties spec.properties = .ok bus := by
  unfold bus?
  cases on : spec.enabled with
  | false => simp
  | true =>
    cases known : busTypes.lookup spec.type with
    | none => simp
    | some other =>
      cases made : Mqtt.Publisher.ofProperties spec.properties <;> simp [Except.map]

theorem driver?_made_iff {spec : DriverSpec} : driver? spec = .ok (some kind) ↔
    driverTypes.lookup spec.type = some kind ∧ checkDriver kind spec.properties = .ok () := by
  unfold driver?
  cases known : driverTypes.lookup spec.type with
  | none => simp
  | some other =>
    constructor
    · intro made
      cases checked : checkDriver other spec.properties with
      | error fault => simp [Except.map, checked] at made
      | ok done =>
        simp only [Except.map, checked, Except.ok.injEq, Option.some.injEq] at made
        subst made
        exact ⟨rfl, checked⟩
    · rintro ⟨same, checked⟩
      cases same
      simp [Except.map, checked]

theorem publisher_configInvalid (failed : Mqtt.Publisher.ofProperties properties = .error fault) :
    fault.kind = .configInvalid := by
  unfold Mqtt.Publisher.ofProperties Mqtt.Publisher.ofSettings at failed
  grind [Fault.configInvalid]

theorem checkDriver_configInvalid (failed : checkDriver kind properties = .error fault) :
    fault.kind = .configInvalid := by
  unfold checkDriver Mqtt.Subscriber.ofProperties at failed
  grind [Fault.configInvalid, Except.map]

theorem bus?_configInvalid {spec : BusSpec} (failed : bus? spec = .error fault) : fault.kind = .configInvalid := by
  unfold bus? at failed
  split at failed
  · split at failed
    · cases failed
    · cases made : Mqtt.Publisher.ofProperties spec.properties with
      | ok bus => rw [made] at failed; cases failed
      | error cause =>
        rw [made] at failed
        cases failed
        exact publisher_configInvalid made
  · cases failed

theorem driver?_configInvalid {spec : DriverSpec} (failed : driver? spec = .error fault) :
    fault.kind = .configInvalid := by
  unfold driver? at failed
  split at failed
  · cases failed
  · rename_i kind known
    cases checked : checkDriver kind spec.properties with
    | ok done => rw [checked] at failed; cases failed
    | error cause =>
      rw [checked] at failed
      cases failed
      exact checkDriver_configInvalid checked

end Catalog

def fault? : Attempt α → Option Fault
  | .ok _ => none
  | .error fault => some fault

namespace Rack

variable {r s : Rack} {result : Attempt Unit}

theorem BusStep.fault?_unconnected {spec : BusSpec} (step : BusStep r spec (unconnected.bus place spec) s result)
    (bare : r.drivers = []) : fault? result = fault? (Catalog.bus? spec) := by
  have free : ¬ r.Fixed spec.type := fun fixed => fixed.2 bare
  cases made : Catalog.bus? spec with
  | error fault =>
    have failed : unconnected.bus place spec = .failed fault := by simp [unconnected, Made.ofKind, made]
    rw [failed] at step
    cases step with
    | fixed fixed => exact absurd fixed free
    | disabled _ off => simp [Catalog.bus?, off] at made
    | unmade => rfl
  | ok kind? =>
    cases kind? with
    | none =>
      have unknown : unconnected.bus place spec = .unknown := by simp [unconnected, Made.ofKind, made]
      rw [unknown] at step
      cases step with
      | fixed fixed => exact absurd fixed free
      | disabled | unknown => rfl
    | some kind =>
      have started : unconnected.bus place spec = .made (.ok ()) := by simp [unconnected, Made.ofKind, made]
      rw [started] at step
      cases step with
      | fixed fixed => exact absurd fixed free
      | disabled | added | replaced => rfl

theorem InstallStep.fault?_unconnected {spec : DriverSpec}
    (step : InstallStep order r spec (unconnected.driver place spec) s result)
    (sound : ∀ spec, r.Installed spec → fault? (Catalog.driver? spec) = none) :
    fault? result = fault? (Catalog.driver? spec) := by
  cases made : Catalog.driver? spec with
  | error fault =>
    have failed : unconnected.driver place spec = .failed fault := by simp [unconnected, Made.ofKind, made]
    rw [failed] at step
    cases step with
    | kept installed =>
      have never := sound spec installed
      rw [made] at never
      cases never
    | unmade => rfl
  | ok kind? =>
    cases kind? with
    | none =>
      have unknown : unconnected.driver place spec = .unknown := by simp [unconnected, Made.ofKind, made]
      rw [unknown] at step
      cases step with
      | kept | unknown => rfl
    | some kind =>
      have started : unconnected.driver place spec = .made (.ok ()) := by simp [unconnected, Made.ofKind, made]
      rw [started] at step
      cases step with
      | kept | started => rfl

theorem InstallStep.installed_before {spec other : DriverSpec} (step : InstallStep order r spec make s (.ok ()))
    (steady : Steady r) (installed : s.Installed other) : other = spec ∨ r.Installed other := by
  by_cases same : other.type = spec.type
  · cases step with
    | kept | unknown => exact .inr installed
    | started =>
      obtain ⟨d, found, rfl⟩ := installed
      have own := ((put_driver? _ _ _ _).trans (if_pos same)).symm.trans found
      cases Option.some.inj own
      exact .inl rfl
  · have spared := step.sparesOthers steady
    obtain ⟨d, found, rfl⟩ := installed
    exact .inr ⟨d, (spared.drivers _ same).symm.trans found, rfl⟩

end Rack

-- The first bus that cannot be made, or else the first driver.
def Plan.fault? (plan : Plan) : Option Fault :=
  (plan.buses.findSome? fun spec => FieldGateway.fault? (Catalog.bus? spec)).or
    (plan.drivers.findSome? fun spec => FieldGateway.fault? (Catalog.driver? spec))

theorem fault?_eq_some_iff {answer : Attempt α} : fault? answer = some fault ↔ answer = .error fault := by
  cases answer <;> simp [fault?]

theorem Plan.fault?_configInvalid {plan : Plan} (found : plan.fault? = some fault) : fault.kind = .configInvalid := by
  rcases Option.or_eq_some_iff.mp found with bus | ⟨-, driver⟩
  · obtain ⟨spec, -, failed⟩ := List.exists_of_findSome?_eq_some bus
    exact Catalog.bus?_configInvalid (fault?_eq_some_iff.mp failed)
  · obtain ⟨spec, -, failed⟩ := List.exists_of_findSome?_eq_some driver
    exact Catalog.driver?_configInvalid (fault?_eq_some_iff.mp failed)

namespace Startup

variable {r : Rack}

theorem start_unconnected (bare : r.drivers = []) (specs : List BusSpec) (first : Nat) :
    fault? (r.start ((specs.zipIdx first).map fun (spec, place) => (spec, unconnected.bus place spec))).2 =
      specs.findSome? fun spec => fault? (Catalog.bus? spec) := by
  induction specs generalizing r first with
  | nil => rfl
  | cons spec specs ih =>
    rw [List.zipIdx_cons, List.map_cons, List.findSome?_cons]
    cases came : r.startBus spec (unconnected.bus first spec) with
    | mk s result =>
      have step := Rack.BusStep.of_startBus came
      rw [← step.fault?_unconnected bare]
      cases result with
      | error fault =>
        rw [Rack.start_cons_error came]
        rfl
      | ok done =>
        rw [Rack.start_cons_ok came]
        exact ih (step.sparesDrivers.drivers.trans bare) (first + 1)

theorem installEach_unconnected (steady : r.Steady)
    (sound : ∀ spec, r.Installed spec → fault? (Catalog.driver? spec) = none) (specs : List DriverSpec) (first : Nat) :
    fault? (installEach r ((specs.zipIdx first).map fun (spec, place) => (spec, unconnected.driver place spec))).2 =
      specs.findSome? fun spec => fault? (Catalog.driver? spec) := by
  induction specs generalizing r first with
  | nil => rfl
  | cons spec specs ih =>
    rw [List.zipIdx_cons, List.map_cons, List.findSome?_cons, installEach]
    have step := Rack.installIn_sound .kept r spec (unconnected.driver first spec)
    have kept := steady.installIn .kept spec (unconnected.driver first spec)
    change Rack.InstallStep .kept r spec _ (r.install spec _).1 (r.install spec _).2 at step
    change (r.install spec _).1.Steady at kept
    rw [← step.fault?_unconnected sound]
    cases came : r.install spec (unconnected.driver first spec) with
    | mk s result =>
      rw [came] at step kept
      cases result with
      | error fault => rfl
      | ok done =>
        refine ih kept ?_ (first + 1)
        intro other installed
        rcases step.installed_before steady installed with rfl | before
        · exact (step.fault?_unconnected sound).symm
        · exact sound other before

theorem ofPlan_unconnected (plan : Plan) :
    (ofPlan .empty plan unconnected).failure = plan.fault?.map .fault := by
  have buses := start_unconnected (rfl : Rack.empty.drivers = []) plan.buses 0
  have steady := Rack.empty_steady.start (plan.buses.zipIdx.map fun (spec, place) => (spec, unconnected.bus place spec))
  have bare := (Rack.start_sparesDrivers .empty
    (plan.buses.zipIdx.map fun (spec, place) => (spec, unconnected.bus place spec))).drivers
  unfold ofPlan Plan.fault?
  rw [← buses]
  cases came : Rack.empty.start (plan.buses.zipIdx.map fun (spec, place) => (spec, unconnected.bus place spec)) with
  | mk r result =>
    rw [came] at steady bare
    cases result with
    | error fault => rfl
    | ok done =>
      have unfilled : ∀ spec, r.Installed spec → FieldGateway.fault? (Catalog.driver? spec) = none := by
        rintro spec ⟨d, found, -⟩
        rw [Rack.driver?, bare] at found
        cases found
      rw [← installEach_unconnected steady unfilled plan.drivers 0]
      cases filled : installEach r (plan.drivers.zipIdx.map fun (spec, place) => (spec, unconnected.driver place spec)) with
      | mk r result => cases result <;> simp [filled, FieldGateway.fault?]

-- A plan that can be read fails the check for the first of its buses that cannot be made, or
-- else for the first of its drivers, and passes it if there is none.
theorem run_unconnected (disk : Disk) (directory : Text) :
    (run disk directory unconnected).failure =
      match Plan.load disk directory with
      | .error failure => some failure
      | .ok plan => plan.fault?.map .fault := by
  unfold run
  cases loaded : Plan.load disk directory with
  | error failure => rfl
  | ok plan => exact ofPlan_unconnected plan

end Startup
end FieldGateway
