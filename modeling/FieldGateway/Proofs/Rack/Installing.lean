import FieldGateway.Proofs.Rack.Starting

-- What becomes of a rack that is asked for a driver: it keeps what it has, or it puts a new
-- driver in the place of the old one. Nothing else is touched either way, and as long as nobody
-- asks for another driver of that type, asking again changes nothing.
namespace FieldGateway.Rack

def Installed (r : Rack) (spec : DriverSpec) : Prop := ∃ d, r.driver? spec.type = some d ∧ d.spec = spec

inductive InstallStep (order : Order) (r : Rack) (spec : DriverSpec) : Made → Rack → Attempt Unit → Prop where
  | kept (installed : r.Installed spec) : InstallStep order r spec make r (.ok ())
  | unknown (other : ¬ r.Installed spec) : InstallStep order r spec .unknown r (.ok ())
  | unmade (other : ¬ r.Installed spec) : InstallStep order r spec (.failed fault) r (.error fault)
  | unstarted (other : ¬ r.Installed spec) : InstallStep order r spec (.made (.error fault))
      { r.stopDriver spec.type with
        serials := r.serials + 1
        history := (r.stopDriver spec.type).history ++ [.driverStarted (r.nextDriver order spec)] ++
          [.driverStopped (r.nextDriver order spec)] } (.error fault)
  | started (other : ¬ r.Installed spec) : InstallStep order r spec (.made (.ok ()))
      { r.stopDriver spec.type with
        drivers := Table.put spec.type (r.nextDriver order spec) (r.stopDriver spec.type).drivers
        serials := r.serials + 1
        history := (r.stopDriver spec.type).history ++ [.driverStarted (r.nextDriver order spec)] } (.ok ())

variable {r s : Rack} {spec : DriverSpec} {make again : Made} {result : Attempt Unit} {order : Order}
  {type other : Text} {call : Call} {calls : List (Order × Call)}

theorem installed_iff : (r.driver? spec.type).any (fun driver => driver.spec = spec) = true ↔ r.Installed spec := by
  simp [Installed, Option.any_eq_true_iff_get, Option.eq_some_iff_get_eq]

theorem installIn_installed (installed : r.Installed spec) (order : Order) (make : Made) :
    r.installIn order spec make = (r, .ok ()) := by
  unfold installIn
  rw [if_pos (installed_iff.mpr installed)]

theorem installIn_unknown (r : Rack) (spec : DriverSpec) (order : Order) :
    r.installIn order spec .unknown = (r, .ok ()) := by
  unfold installIn
  split <;> rfl

theorem installIn_unmade (other : ¬ r.Installed spec) (order : Order) (fault : Fault) :
    r.installIn order spec (.failed fault) = (r, .error fault) := by
  unfold installIn
  rw [if_neg (mt installed_iff.mp other)]

theorem installIn_made (other : ¬ r.Installed spec) (order : Order) (started : Attempt Unit) :
    r.installIn order spec (.made started) = r.installMadeIn order spec started := by
  unfold installIn
  rw [if_neg (mt installed_iff.mp other)]

theorem installIn_sound (order : Order) (r : Rack) (spec : DriverSpec) (make : Made) :
    InstallStep order r spec make (r.installIn order spec make).1 (r.installIn order spec make).2 := by
  by_cases installed : r.Installed spec
  · rw [installIn_installed installed]
    exact .kept installed
  cases make with
  | unknown =>
    rw [installIn_unknown]
    exact .unknown installed
  | failed fault =>
    rw [installIn_unmade installed]
    exact .unmade installed
  | made started =>
    rw [installIn_made installed]
    cases started with
    | error fault =>
      rw [installMadeIn_failed]
      exact .unstarted installed
    | ok done =>
      rw [installMadeIn_done]
      exact .started installed

theorem stopDriver_history (r : Rack) (type : Text) :
    (r.stopDriver type).history = r.history ++ (r.driver? type).toList.map .driverStopped := by
  unfold stopDriver
  cases r.driver? type <;> simp [record]

theorem Steady.stopDriver_driver? (steady : Steady r) (type other : Text) :
    (r.stopDriver type).driver? other = if other = type then none else r.driver? other := by
  unfold Rack.stopDriver
  cases found : r.driver? type with
  | none =>
    by_cases same : other = type
    · subst same
      rw [if_pos rfl]
      exact found
    · rw [if_neg same]
  | some old => exact steady.drivers.ascending.get?_erase

theorem put_driver? (r : Rack) (type : Text) (d : DriverUnit) (other : Text) :
    driver? { r with drivers := Table.put type d r.drivers } other =
      if other = type then some d else r.driver? other := Table.get?_put type d r.drivers

section Frame

def OfDrivers (type : Text) (event : RackEvent) : Prop :=
  ∃ d, d.spec.type = type ∧ (event = .driverStarted d ∨ event = .driverStopped d)

structure SparesOthers (type : Text) (r s : Rack) : Prop where
  buses : s.buses = r.buses
  drivers : ∀ other, other ≠ type → s.driver? other = r.driver? other
  events : Adds (OfDrivers type) r s

theorem SparesOthers.refl (type : Text) (r : Rack) : SparesOthers type r r := ⟨rfl, fun _ _ => rfl, .refl r⟩

theorem Steady.stopDriver_sparesOthers (steady : Steady r) (type : Text) :
    SparesOthers type r (r.stopDriver type) := by
  refine ⟨stopDriver_buses r type, ?_, _, stopDriver_history r type, ?_⟩
  · intro other different
    rw [steady.stopDriver_driver?, if_neg different]
  · intro event member
    obtain ⟨old, found, rfl⟩ := List.mem_map.mp member
    rw [Option.mem_toList] at found
    exact ⟨old, (steady.drivers.named _ (Table.get?_mem found)).symm, .inr rfl⟩

theorem InstallStep.sparesOthers (step : InstallStep order r spec make s result) (steady : Steady r) :
    SparesOthers spec.type r s := by
  have stopped := steady.stopDriver_sparesOthers spec.type
  have own : (r.nextDriver order spec).spec.type = spec.type := rfl
  cases step with
  | kept | unknown | unmade => exact .refl _ r
  | unstarted =>
    refine ⟨stopped.buses, stopped.drivers, stopped.events.trans ⟨_, List.append_assoc .., ?_⟩⟩
    simp [OfDrivers, own]
  | started =>
    refine ⟨stopped.buses, ?_, stopped.events.trans ⟨_, rfl, by simp [OfDrivers, own]⟩⟩
    intro other different
    rw [← stopped.drivers other different]
    exact (put_driver? _ _ _ other).trans (if_neg different)

end Frame

-- The new driver in its place: made with the buses that are tracked, started after the old one
-- has stopped, and tracked if it came up.
structure Replaces (order : Order) (r : Rack) (spec : DriverSpec) (started : Attempt Unit) (s : Rack) : Prop where
  buses : (r.nextDriver order spec).buses.Perm r.busesOf
  fresh : .driverStarted (r.nextDriver order spec) ∉ r.history
  previous : ∀ old, r.driver? spec.type = some old → StoppedOnce s.history (.driver old)
  up : started = .ok () → s.driver? spec.type = some (r.nextDriver order spec) ∧
    s.history = r.history ++ (r.driver? spec.type).toList.map .driverStopped ++
      [.driverStarted (r.nextDriver order spec)]
  down : ∀ fault, started = .error fault → s.driver? spec.type = none ∧
    StoppedOnce s.history (.driver (r.nextDriver order spec)) ∧
    s.history = r.history ++ (r.driver? spec.type).toList.map .driverStopped ++
      [.driverStarted (r.nextDriver order spec)] ++ [.driverStopped (r.nextDriver order spec)]

theorem Steady.replaces (steady : Steady r) (other : ¬ r.Installed spec) (order : Order) (started : Attempt Unit) :
    Replaces order r spec started (r.installIn order spec (.made started)).1 := by
  have orderly := (steady.installIn order spec (.made started)).accounts.orderly
  have fresh : .driverStarted (r.nextDriver order spec) ∉ r.history := fun member =>
    Nat.lt_irrefl _ (steady.accounts.numbered (.driver (r.nextDriver order spec)) member)
  have gone : (r.stopDriver spec.type).driver? spec.type = none :=
    (steady.stopDriver_driver? spec.type spec.type).trans (if_pos rfl)
  have stopped := stopDriver_history r spec.type
  have previous : ∀ old, r.driver? spec.type = some old →
      .driverStopped old ∈ (r.installIn order spec (.made started)).1.history := by
    intro old found
    rw [installIn_made other]
    cases started with
    | error fault => simp [installMadeIn_failed, stopped, found]
    | ok done =>
      rw [installMadeIn_done]
      simp [stopped, found]
  refine ⟨order.buses_perm _, fresh, fun old found => orderly.stoppedOnce (u := .driver old) (previous old found), ?_, ?_⟩
  · intro came
    subst came
    rw [installIn_made other, installMadeIn_done]
    exact ⟨(put_driver? _ _ _ spec.type).trans (if_pos rfl), by rw [stopped]⟩
  · intro fault failed
    subst failed
    rw [installIn_made other, installMadeIn_failed] at orderly ⊢
    have once := orderly.stoppedOnce (u := .driver (r.nextDriver order spec)) (by simp [RackUnit.stopped])
    exact ⟨gone, once, by rw [stopped]⟩

def Elsewhere (type : Text) : Call → Prop
  | .start _ => True
  | .install spec _ => spec.type ≠ type
  | .uninstall other => other ≠ type
  | .stop => False

theorem Steady.applyIn_driver? (steady : Steady r) (elsewhere : Elsewhere type call) (order : Order) :
    (r.applyIn order call).1.driver? type = r.driver? type := by
  cases call with
  | start wanted =>
    have spared := start_sparesDrivers r wanted
    exact congrArg (Table.get? type) spared.drivers
  | install spec make => exact ((installIn_sound order r spec make).sparesOthers steady).drivers type elsewhere.symm
  | uninstall other => exact (steady.stopDriver_sparesOthers other).drivers type elsewhere.symm
  | stop => cases elsewhere

theorem Steady.runIn_driver? (steady : Steady r) (elsewhere : ∀ call ∈ calls, Elsewhere type call.2) :
    (r.runIn calls).driver? type = r.driver? type := by
  induction calls generalizing r with
  | nil => rfl
  | cons call calls ih =>
    have first := steady.applyIn_driver? (elsewhere call List.mem_cons_self) call.1
    have rest := ih (steady.applyIn call.1 call.2) fun later member => elsewhere later (List.mem_cons_of_mem _ member)
    exact rest.trans first

theorem InstallStep.installed (step : InstallStep order r spec make s (.ok ())) : s.Installed spec ∨ make = .unknown := by
  cases step with
  | kept installed => exact .inl installed
  | unknown => exact .inr rfl
  | started => exact .inl ⟨_, (put_driver? _ _ _ spec.type).trans (if_pos rfl), rfl⟩

-- What is installed already or unknown changes nothing, and neither does what cannot be made.
-- Everything else takes the place of the driver of its type. Asked again after whatever has
-- been done to drivers of other types, a rack has nothing to do; a type that was unknown
-- remains so.
theorem install_transitions (earlier : List (Order × Call)) (order : Order) (spec : DriverSpec) (make : Made) :
    ((empty.runIn earlier).Installed spec ∨ make = .unknown →
      (empty.runIn earlier).installIn order spec make = (empty.runIn earlier, .ok ())) ∧
    (∀ fault, ¬ (empty.runIn earlier).Installed spec → make = .failed fault →
      (empty.runIn earlier).installIn order spec make = (empty.runIn earlier, .error fault)) ∧
    (∀ started, ¬ (empty.runIn earlier).Installed spec → make = .made started →
      Replaces order (empty.runIn earlier) spec started ((empty.runIn earlier).installIn order spec make).1 ∧
      ((empty.runIn earlier).installIn order spec make).2 = started) ∧
    SparesOthers spec.type (empty.runIn earlier) ((empty.runIn earlier).installIn order spec make).1 ∧
    ∀ later order' again, ((empty.runIn earlier).installIn order spec make).2 = .ok () →
      (∀ call ∈ later, Elsewhere spec.type call.2) → (make = .unknown → again = .unknown) →
      (((empty.runIn earlier).installIn order spec make).1.runIn later).installIn order' spec again =
        (((empty.runIn earlier).installIn order spec make).1.runIn later, .ok ()) := by
  have steady := empty_steady.runIn earlier
  generalize empty.runIn earlier = r at steady ⊢
  have step := installIn_sound order r spec make
  refine ⟨?_, ?_, ?_, step.sparesOthers steady, ?_⟩
  · intro known
    rcases known with installed | unknown
    · exact installIn_installed installed order make
    · rw [unknown]
      exact installIn_unknown r spec order
  · intro fault other failed
    rw [failed]
    exact installIn_unmade other order fault
  · intro started other made
    subst made
    refine ⟨steady.replaces other order started, ?_⟩
    rw [installIn_made other]
    cases started with
    | error fault => rw [installMadeIn_failed]
    | ok done => rw [installMadeIn_done]
  · intro later order' again came elsewhere registered
    rw [came] at step
    rcases step.installed with ⟨d, there, own⟩ | unknown
    · have still := (steady.installIn order spec make).runIn_driver? elsewhere
      exact installIn_installed ⟨d, still.trans there, own⟩ order' again
    · rw [registered unknown]
      exact installIn_unknown _ spec order'

def renewed : DriverSpec := ⟨"opcua", [("timeout", .bool true)]⟩

def elsewhere : List (Order × Call) :=
  [(.kept, .install ⟨"mqtt", []⟩ (.made (.ok ()))), (.kept, .start [(⟨true, "kafka", []⟩, .made (.ok ()))]),
    (.kept, .uninstall "mqtt")]

theorem install_transitions_renewed :
    ¬ (empty.runIn serving).Installed renewed ∧
    Replaces .kept (empty.runIn serving) renewed (.error refused)
      ((empty.runIn serving).installIn .kept renewed (.made (.error refused))).1 ∧
    (∀ call ∈ elsewhere, Elsewhere "opcua" call.2) ∧
    (((empty.runIn serving).installIn .kept renewed (.made (.ok ()))).1.runIn elsewhere).installIn .kept renewed
        (.made (.ok ())) =
      (((empty.runIn serving).installIn .kept renewed (.made (.ok ()))).1.runIn elsewhere, .ok ()) := by
  have other : ¬ (empty.runIn serving).Installed renewed := mt installed_iff.mpr (by decide)
  have away : ∀ call ∈ elsewhere, Elsewhere "opcua" call.2 := by simp [elsewhere, Elsewhere]
  obtain ⟨-, -, replaces, -, -⟩ := install_transitions serving .kept renewed (.made (.error refused))
  obtain ⟨-, -, -, -, repeats⟩ := install_transitions serving .kept renewed (.made (.ok ()))
  exact ⟨other, (replaces _ other rfl).1, away, repeats elsewhere .kept _ rfl away nofun⟩

end FieldGateway.Rack
