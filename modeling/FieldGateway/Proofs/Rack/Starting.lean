import FieldGateway.Proofs.Rack.Balance

-- A start takes its buses one after the other. What can come of one bus is said once, and with
-- it what a start leaves behind that a fault has ended, and what buses do that are not enabled.
namespace FieldGateway.Rack

def Fixed (r : Rack) (type : Text) : Prop := r.hasBus type = true ∧ r.drivers ≠ []

def abandoned (r : Rack) (spec : BusSpec) : Rack :=
  { r with
    serials := r.serials + 1
    history := r.history ++ [.busStarted (r.nextBus spec)] ++ [.busStopped (r.nextBus spec)] }

-- A bus that may not be replaced is refused before anything else about the new one is looked at.
inductive BusStep (r : Rack) (spec : BusSpec) : Made → Rack → Attempt Unit → Prop where
  | fixed (fixed : r.Fixed spec.type) : BusStep r spec make r (.error (fixedBus spec.type))
  | disabled (free : ¬ r.Fixed spec.type) (off : spec.enabled = false) : BusStep r spec make r (.ok ())
  | unknown (free : ¬ r.Fixed spec.type) (on : spec.enabled = true) : BusStep r spec .unknown r (.ok ())
  | unmade (free : ¬ r.Fixed spec.type) (on : spec.enabled = true) :
      BusStep r spec (.failed fault) r (.error fault)
  | unstarted (free : ¬ r.Fixed spec.type) (on : spec.enabled = true) :
      BusStep r spec (.made (.error fault)) (r.abandoned spec) (.error fault)
  | added (free : ¬ r.Fixed spec.type) (on : spec.enabled = true)
      (absent : Table.get? spec.type r.buses = none) :
      BusStep r spec (.made (.ok ()))
        { r with
          buses := Table.put spec.type (r.nextBus spec) r.buses
          serials := r.serials + 1
          history := r.history ++ [.busStarted (r.nextBus spec)] } (.ok ())
  | replaced (free : ¬ r.Fixed spec.type) (on : spec.enabled = true)
      (present : Table.get? spec.type r.buses = some old) :
      BusStep r spec (.made (.ok ()))
        { r with
          buses := Table.put spec.type (r.nextBus spec) r.buses
          serials := r.serials + 1
          history := r.history ++ [.busStarted (r.nextBus spec)] ++ [.busStopped old] } (.ok ())

variable {r s t reached : Rack} {spec : BusSpec} {make : Made} {fault : Fault} {result : Attempt Unit}
  {wanted before after : List (BusSpec × Made)} {allowed : RackEvent → Prop}

theorem startBus_fixed (fixed : r.Fixed spec.type) (make : Made) :
    r.startBus spec make = (r, .error (fixedBus spec.type)) := by
  simp [startBus, fixed.1, fixed.2]

theorem unguarded_of_free (free : ¬ r.Fixed spec.type) : (r.hasBus spec.type && !r.drivers.isEmpty) = false := by
  simpa [Fixed] using free

theorem startBus_disabled (free : ¬ r.Fixed spec.type) (off : spec.enabled = false) (make : Made) :
    r.startBus spec make = (r, .ok ()) := by
  simp [startBus, unguarded_of_free free, off]

theorem startBus_made (free : ¬ r.Fixed spec.type) (on : spec.enabled = true) (started : Attempt Unit) :
    r.startBus spec (.made started) = r.startMade spec started := by
  simp [startBus, unguarded_of_free free, on]

theorem startBus_sound (r : Rack) (spec : BusSpec) (make : Made) :
    BusStep r spec make (r.startBus spec make).1 (r.startBus spec make).2 := by
  by_cases fixed : r.Fixed spec.type
  · rw [startBus_fixed fixed]
    exact .fixed fixed
  cases on : spec.enabled with
  | false =>
    rw [startBus_disabled fixed on]
    exact .disabled fixed on
  | true =>
    cases make with
    | unknown =>
      have same : r.startBus spec .unknown = (r, .ok ()) := by simp [startBus, unguarded_of_free fixed, on]
      rw [same]
      exact .unknown fixed on
    | failed fault =>
      have same : r.startBus spec (.failed fault) = (r, .error fault) := by
        simp [startBus, unguarded_of_free fixed, on]
      rw [same]
      exact .unmade fixed on
    | made started =>
      rw [startBus_made fixed on]
      cases started with
      | error fault =>
        rw [startMade_failed]
        exact .unstarted fixed on
      | ok done =>
        cases there : Table.get? spec.type r.buses with
        | none =>
          rw [startMade_added there]
          exact .added fixed on there
        | some old =>
          rw [startMade_replaced there]
          exact .replaced fixed on there

theorem BusStep.of_startBus (came : r.startBus spec make = (s, result)) : BusStep r spec make s result := by
  have step := startBus_sound r spec make
  rwa [came] at step

section Frame

def Adds (allowed : RackEvent → Prop) (r s : Rack) : Prop :=
  ∃ events, s.history = r.history ++ events ∧ ∀ event ∈ events, allowed event

theorem Adds.refl (r : Rack) : Adds allowed r r := ⟨[], by simp, by simp⟩

theorem Adds.trans (first : Adds allowed r s) (second : Adds allowed s t) : Adds allowed r t := by
  obtain ⟨events, history, allow⟩ := first
  obtain ⟨events', history', allow'⟩ := second
  refine ⟨events ++ events', by rw [history', history, List.append_assoc], ?_⟩
  intro event member
  rcases List.mem_append.mp member with earlier | later
  · exact allow event earlier
  · exact allow' event later

def OfBuses (event : RackEvent) : Prop := ∃ b, event = .busStarted b ∨ event = .busStopped b

structure SparesDrivers (r s : Rack) : Prop where
  drivers : s.drivers = r.drivers
  events : Adds OfBuses r s

theorem SparesDrivers.refl (r : Rack) : SparesDrivers r r := ⟨rfl, .refl r⟩

theorem SparesDrivers.trans (first : SparesDrivers r s) (second : SparesDrivers s t) : SparesDrivers r t :=
  ⟨second.drivers.trans first.drivers, first.events.trans second.events⟩

theorem BusStep.sparesDrivers (step : BusStep r spec make s result) : SparesDrivers r s := by
  cases step with
  | fixed | disabled | unknown | unmade => exact .refl r
  | unstarted => exact ⟨rfl, _, List.append_assoc .., by simp [OfBuses]⟩
  | added => exact ⟨rfl, _, rfl, by simp [OfBuses]⟩
  | replaced => exact ⟨rfl, _, List.append_assoc .., by simp [OfBuses]⟩

end Frame

theorem start_cons_ok (first : r.startBus spec make = (s, .ok ())) (rest : List (BusSpec × Made)) :
    r.start ((spec, make) :: rest) = s.start rest := by
  rw [start, first]

theorem start_cons_error (first : r.startBus spec make = (s, .error fault)) (rest : List (BusSpec × Made)) :
    r.start ((spec, make) :: rest) = (s, .error fault) := by
  rw [start, first]

theorem start_append (r : Rack) (first second : List (BusSpec × Made)) :
    r.start (first ++ second) = match r.start first with
      | (s, .ok ()) => s.start second
      | (s, .error fault) => (s, .error fault) := by
  induction first generalizing r with
  | nil => rfl
  | cons head first ih =>
    obtain ⟨spec, make⟩ := head
    rw [List.cons_append]
    cases came : r.startBus spec make with
    | mk s result =>
      cases result with
      | ok done => rw [start_cons_ok came, start_cons_ok came, ih]
      | error fault => rw [start_cons_error came, start_cons_error came]

theorem start_append_ok (earlier : r.start before = (s, .ok ())) (later : List (BusSpec × Made)) :
    r.start (before ++ later) = s.start later := by
  rw [start_append, earlier]

theorem start_sparesDrivers (r : Rack) (wanted : List (BusSpec × Made)) : SparesDrivers r (r.start wanted).1 := by
  induction wanted generalizing r with
  | nil => exact .refl r
  | cons head rest ih =>
    obtain ⟨spec, make⟩ := head
    cases came : r.startBus spec make with
    | mk s result =>
      have spared := (BusStep.of_startBus came).sparesDrivers
      cases result with
      | ok done =>
        rw [start_cons_ok came]
        exact spared.trans (ih s)
      | error fault =>
        rw [start_cons_error came]
        exact spared

theorem start_error_parts (failed : r.start wanted = (s, .error fault)) :
    ∃ before spec make after reached, wanted = before ++ (spec, make) :: after ∧
      r.start before = (reached, .ok ()) ∧ reached.startBus spec make = (s, .error fault) := by
  induction wanted generalizing r with
  | nil => cases failed
  | cons head rest ih =>
    obtain ⟨spec, make⟩ := head
    cases came : r.startBus spec make with
    | mk next result =>
      cases result with
      | ok done =>
        rw [start_cons_ok came] at failed
        obtain ⟨before, spec', make', after, reached, rfl, earlier, breaks⟩ := ih failed
        refine ⟨(spec, make) :: before, spec', make', after, reached, rfl, ?_, breaks⟩
        rw [start_cons_ok came, earlier]
      | error cause =>
        rw [start_cons_error came] at failed
        cases failed
        exact ⟨[], spec, make, rest, r, rfl, rfl, came⟩

-- What a start leaves behind that one of its buses has ended. The rack that this bus came to is
-- the one after all buses before it.
structure Ended (r : Rack) (before : List (BusSpec × Made)) (spec : BusSpec) (make : Made) (reached s : Rack)
    (fault : Fault) : Prop where
  earlier : r.start before = (reached, .ok ())
  cause : BusStep reached spec make s (.error fault)
  sparesDrivers : SparesDrivers r s
  buses : s.buses = reached.buses
  unmade : s.serials = reached.serials → s = reached
  made : s.serials ≠ reached.serials → s.serials = reached.serials + 1 ∧
    s.history = reached.history ++ [.busStarted (reached.nextBus spec)] ++ [.busStopped (reached.nextBus spec)] ∧
    StoppedOnce s.history (.bus (reached.nextBus spec)) ∧ ¬ s.Tracks (.bus (reached.nextBus spec))
  kept : ∀ b, reached.Tracks (.bus b) → s.Tracks (.bus b) ∧ .busStopped b ∉ s.history
  unheard : ∀ later, r.start (before ++ (spec, make) :: later) = (s, .error fault)

theorem Steady.ended (steady : Steady r) (earlier : r.start before = (reached, .ok ()))
    (breaks : reached.startBus spec make = (s, .error fault)) : Ended r before spec make reached s fault := by
  have onTheWay : Steady reached := by
    have steady' := steady.start before
    rwa [earlier] at steady'
  have steady' : Steady s := by
    have steady' := onTheWay.startBus spec make
    rwa [breaks] at steady'
  have cause := BusStep.of_startBus breaks
  have unheard : ∀ later, r.start (before ++ (spec, make) :: later) = (s, .error fault) := by
    intro later
    rw [start_append_ok earlier, start_cons_error breaks]
  have spares : SparesDrivers r s := by
    have spares := start_sparesDrivers r (before ++ [(spec, make)])
    rwa [unheard] at spares
  have buses : s.buses = reached.buses := by cases cause <;> rfl
  refine ⟨earlier, cause, spares, buses, ?_, ?_, ?_, unheard⟩
  · intro same
    cases cause with
    | fixed | unmade => rfl
    | unstarted => exact absurd same (Nat.succ_ne_self _)
  · intro different
    cases cause with
    | fixed | unmade => exact absurd rfl different
    | unstarted =>
      have untracked : ¬ (reached.abandoned spec).Tracks (.bus (reached.nextBus spec)) := fun tracked =>
        Nat.lt_irrefl _ (onTheWay.accounts.serial_lt (u := .bus (reached.nextBus spec)) tracked)
      exact ⟨rfl, rfl, steady'.balanced.gone _ (by simp [abandoned, RackUnit.started]) untracked, untracked⟩
  · intro b tracked
    have still : s.Tracks (.bus b) := by
      unfold Tracks at tracked ⊢
      rwa [buses]
    exact ⟨still, steady'.balanced.kept _ still⟩

-- A start that fails has been ended by one of its buses, and what it leaves behind is what the
-- buses before that one have left, except for a bus that was made and had to be stopped again.
-- So a start may be cut in two at any place.
theorem start_ended (calls : List (Order × Call)) (wanted : List (BusSpec × Made)) :
    (∀ s fault, (empty.runIn calls).start wanted = (s, .error fault) →
      ∃ before spec make after reached, wanted = before ++ (spec, make) :: after ∧
        Ended (empty.runIn calls) before spec make reached s fault) ∧
    ∀ first second, (empty.runIn calls).start (first ++ second) =
      match (empty.runIn calls).start first with
      | (s, .ok ()) => s.start second
      | (s, .error fault) => (s, .error fault) := by
  have steady := empty_steady.runIn calls
  refine ⟨?_, start_append _⟩
  intro s fault failed
  obtain ⟨before, spec, make, after, reached, split, earlier, breaks⟩ := start_error_parts failed
  exact ⟨before, spec, make, after, reached, split, steady.ended earlier breaks⟩

def serving : List (Order × Call) :=
  [(.kept, .start [(⟨true, "mqtt", []⟩, .made (.ok ()))]), (.kept, .install ⟨"opcua", []⟩ (.made (.ok ())))]

def refused : Fault := .connectionFailure "refused"

def partly : List (BusSpec × Made) :=
  [(⟨true, "kafka", []⟩, .made (.ok ())), (⟨true, "amqp", []⟩, .made (.error refused)),
    (⟨true, "mqtt", []⟩, .made (.ok ()))]

theorem start_ended_partly :
    (empty.runIn serving).start partly = (((empty.runIn serving).start partly).1, .error refused) ∧
    ((empty.runIn serving).start partly).1.busTypes = ["kafka", "mqtt"] ∧
    ∃ before spec make after reached, partly = before ++ (spec, make) :: after ∧
      Ended (empty.runIn serving) before spec make reached ((empty.runIn serving).start partly).1 refused := by
  have failed : (empty.runIn serving).start partly = (((empty.runIn serving).start partly).1, .error refused) := rfl
  exact ⟨failed, by decide, (start_ended serving partly).1 _ _ failed⟩

def enabledOnly (wanted : List (BusSpec × Made)) : List (BusSpec × Made) := wanted.filter fun pair => pair.1.enabled

structure Hinders (r : Rack) (before : List (BusSpec × Made)) (spec : BusSpec) (reached : Rack) : Prop where
  disabled : spec.enabled = false
  earlier : r.start before = (reached, .ok ())
  fixed : reached.Fixed spec.type

def Unhindered (r : Rack) (wanted : List (BusSpec × Made)) : Prop :=
  ∀ before spec make after reached, wanted = before ++ (spec, make) :: after → ¬ Hinders r before spec reached

theorem Unhindered.tail (calm : Unhindered r ((spec, make) :: wanted)) (first : r.startBus spec make = (s, .ok ())) :
    Unhindered s wanted := by
  intro before spec' make' after reached split hinders
  refine calm ((spec, make) :: before) spec' make' after reached (by rw [split, List.cons_append]) ?_
  exact ⟨hinders.disabled, by rw [start_cons_ok first, hinders.earlier], hinders.fixed⟩

theorem Unhindered.start_enabledOnly (calm : Unhindered r wanted) : r.start (enabledOnly wanted) = r.start wanted := by
  induction wanted generalizing r with
  | nil => rfl
  | cons head rest ih =>
    obtain ⟨spec, make⟩ := head
    cases on : spec.enabled with
    | true =>
      have kept : enabledOnly ((spec, make) :: rest) = (spec, make) :: enabledOnly rest := by simp [enabledOnly, on]
      rw [kept]
      cases came : r.startBus spec make with
      | mk s result =>
        cases result with
        | ok done => rw [start_cons_ok came, start_cons_ok came, ih (calm.tail came)]
        | error fault => rw [start_cons_error came, start_cons_error came]
    | false =>
      have left : enabledOnly ((spec, make) :: rest) = enabledOnly rest := by simp [enabledOnly, on]
      have free : ¬ r.Fixed spec.type := fun fixed => calm [] spec make rest r rfl ⟨on, rfl, fixed⟩
      have nothing := startBus_disabled free on make
      rw [left, start_cons_ok nothing, ih (calm.tail nothing)]

theorem unhindered_of_ok (earlier : r.start before = (reached, .ok ())) : Unhindered r before := by
  intro before' spec make after reached' split hinders
  rw [split, start_append_ok hinders.earlier, start_cons_error (startBus_fixed hinders.fixed make)] at earlier
  cases earlier

-- Buses that are not enabled have no effect, except for one that hinders the start: it ends the
-- start there, as it would be ended for an enabled bus that may not be replaced.
theorem disabled_ignored (r : Rack) (wanted : List (BusSpec × Made)) :
    (Unhindered r wanted → r.start wanted = r.start (enabledOnly wanted)) ∧
    ∀ before spec make after reached, wanted = before ++ (spec, make) :: after → Hinders r before spec reached →
      r.start wanted = (reached, .error (fixedBus spec.type)) ∧
      r.start (enabledOnly wanted) = reached.start (enabledOnly after) := by
  refine ⟨fun calm => calm.start_enabledOnly.symm, ?_⟩
  intro before spec make after reached split hinders
  subst split
  have earlier := hinders.earlier
  constructor
  · rw [start_append_ok earlier, start_cons_error (startBus_fixed hinders.fixed make)]
  · have others : enabledOnly (before ++ (spec, make) :: after) = enabledOnly before ++ enabledOnly after := by
      simp [enabledOnly, hinders.disabled]
    rw [others, start_append_ok ((unhindered_of_ok earlier).start_enabledOnly.trans earlier)]

theorem disabled_ignored_serving :
    ((empty.runIn serving).start [(⟨false, "amqp", []⟩, .unknown), (⟨true, "kafka", []⟩, .made (.ok ()))] =
      (empty.runIn serving).start [(⟨true, "kafka", []⟩, .made (.ok ()))]) ∧
    (empty.runIn serving).start [(⟨false, "mqtt", []⟩, .unknown), (⟨true, "kafka", []⟩, .made (.ok ()))] =
      (empty.runIn serving, .error (fixedBus "mqtt")) := by
  constructor
  · refine (disabled_ignored (empty.runIn serving) _).1 ?_
    intro before spec make after reached split hinders
    rcases before with - | ⟨first, - | ⟨second, before⟩⟩
    · cases split
      cases hinders.earlier
      exact absurd hinders.fixed.1 (by decide)
    · cases split
      exact absurd hinders.disabled (by decide)
    · simp at split
  · refine ((disabled_ignored (empty.runIn serving) _).2 [] ⟨false, "mqtt", []⟩ .unknown _ (empty.runIn serving) rfl ?_).1
    exact ⟨rfl, rfl, by decide, by decide⟩

-- The start of a single bus that is not enabled fails, though nothing would be replaced.
theorem disabled_refused :
    (empty.runIn serving).start [(⟨false, "mqtt", []⟩, .unknown)] = (empty.runIn serving, .error (fixedBus "mqtt")) ∧
    (empty.runIn serving).start (enabledOnly [(⟨false, "mqtt", []⟩, .unknown)]) = (empty.runIn serving, .ok ()) :=
  ⟨rfl, rfl⟩

end FieldGateway.Rack
