import FieldGateway.OpcUa.Fleet
import FieldGateway.Proofs.Schema.Device
import FieldGateway.Proofs.Table

-- What the moves of a task and of a fleet can do, once for all invariants: a rule for every
-- outcome of a move, with everything that the move has looked at.
namespace FieldGateway.OpcUa

namespace Task

inductive Step (number : Nat) (t : Task) : TaskMove → Effect → Prop where
  | dropped (cancelled : t.cancelled = true) (starting : t.phase.isStarting = true) :
      Step number t .drop { task := t.enter .ended }
  | misplanned (phase : t.phase = .created) (planned : t.plan = .error defect) :
      Step number t .begin { task := t.enter (.failed (.configInvalid defect.message)) }
  | began (phase : t.phase = .created) (planned : t.plan = .ok (endpoint, fresh)) :
      Step number t .begin { task := t.enter (.connecting fresh), events := [.connect number] }
  | connected (phase : t.phase = .connecting fresh) :
      Step number t .connected
        { task := t.enter (.subscribing fresh), events := [.opened number, .subscribe number fresh] }
  | refused (phase : t.phase = .connecting fresh) :
      Step number t (.refused fault) { task := t.enter (.failed fault) }
  | subscribed (phase : t.phase = .subscribing fresh) :
      Step number t .subscribed { task := t.enter (.recording fresh), events := [.subscribed number] }
  | unsubscribed (phase : t.phase = .subscribing fresh) :
      Step number t (.unsubscribed fault) { task := t.enter (.abandoning fault), events := [.closed number] }
  | abandoned (phase : t.phase = .abandoning fault) :
      Step number t .sessionClosed { task := t.enter (.failed fault) }
  | finished (phase : t.phase = .closing) : Step number t .sessionClosed { task := t.enter .ended }
  | recorded (phase : t.phase = .recording fresh) :
      Step number t .record {
        task := { t with phase := .looking (Request.merge t.carried fresh), answer := some (.ok ()) }
        edit := .record (Request.merge t.carried fresh) }
  | forgotten (phase : t.phase = .failed fault) :
      Step number t .forget
        { task := { t with phase := .ended, answer := some (.error fault) }, edit := .forget }
  | withdrawn (phase : t.phase = .looking known) (cancelled : t.cancelled = true) :
      Step number t .look { task := t.enter .closing, events := [.closed number] }
  | looked (phase : t.phase = .looking known) (uncancelled : t.cancelled = false) :
      Step number t .look { task := t.enter (.reading known) }
  | read (phase : t.phase = .reading known) (inbox : t.inbox = notification :: rest) :
      Step number t .read
        { task := { t with phase := .workOff known notification.items, inbox := rest } }
  | forwarded (phase : t.phase = .forwarding known next rest) :
      Step number t (.forward stamp) {
        task := t.enter (.workOff known rest)
        deliveries :=
          ((next.telemetry? known stamp).map fun telemetry => ⟨t.device.name, telemetry⟩).toList }
  | rested (phase : t.phase = .reading known) (inbox : t.inbox = []) (served : t.severed = false) :
      Step number t .rest { task := t.enter (.looking known) }
  | hungUp (phase : t.phase = .reading known) (inbox : t.inbox = []) (severed : t.severed = true) :
      Step number t .hangUp { task := t.enter .closing, events := [.closed number] }

theorem step_sound {t : Task} (stepped : t.step number move = some e) : Step number t move e := by
  unfold step at stepped
  split at stepped
  · rename_i phase
    split at stepped
    · rename_i guard
      cases stepped
      rw [Bool.and_eq_true] at guard
      exact .dropped guard.1 guard.2
    · cases stepped
  · rename_i phase
    split at stepped
    · rename_i defect planned
      cases stepped
      exact .misplanned phase planned
    · rename_i endpoint fresh planned
      cases stepped
      exact .began phase planned
  · rename_i phase; cases stepped; exact .connected phase
  · rename_i phase; cases stepped; exact .refused phase
  · rename_i phase; cases stepped; exact .subscribed phase
  · rename_i phase; cases stepped; exact .unsubscribed phase
  · rename_i phase; cases stepped; exact .abandoned phase
  · rename_i phase; cases stepped; exact .finished phase
  · rename_i phase; cases stepped; exact .recorded phase
  · rename_i phase; cases stepped; exact .forgotten phase
  · rename_i phase
    split at stepped
    · rename_i cancelled
      cases stepped
      exact .withdrawn phase cancelled
    · rename_i uncancelled
      cases stepped
      exact .looked phase (by simpa using uncancelled)
  · rename_i phase
    split at stepped
    · cases stepped
    · rename_i inbox
      cases stepped
      exact .read phase inbox
  · rename_i phase; cases stepped; exact .forwarded phase
  · rename_i phase
    split at stepped
    · rename_i guard
      cases stepped
      simp only [Bool.and_eq_true, List.isEmpty_iff, Bool.not_eq_true'] at guard
      exact .rested phase guard.1 guard.2
    · cases stepped
  · rename_i phase
    split at stepped
    · rename_i guard
      cases stepped
      simp only [Bool.and_eq_true, List.isEmpty_iff] at guard
      exact .hungUp phase guard.1 guard.2
    · cases stepped
  · cases stepped

theorem step_complete {t : Task} (step : Step number t move e) : t.step number move = some e := by
  cases step <;> simp_all [Task.step]

theorem step_exact {t : Task} : t.step number move = some e ↔ Step number t move e :=
  ⟨step_sound, step_complete⟩

theorem Step.events_own {t : Task} (step : Step number t move e) : ∀ event ∈ e.events, event.task = number := by
  cases step <;> simp [SessionEvent.task]

theorem Step.unended {t : Task} (step : Step number t move e) : t.hasEnded = false := by
  cases step <;> simp_all [hasEnded, Phase.isEnded, Phase.isStarting]
  split <;> simp_all

-- How a move of the fleet can change one task, and which events of its session come with it.
inductive Advance (number : Nat) (t : Task) : Task → List SessionEvent → Prop where
  | kept : Advance number t t []
  | cancelled : Advance number t t.cancel []
  | stepped (step : Step number t move e) : Advance number t e.task e.events
  | notified (subscribed : t.phase.isSubscribed = true) :
      Advance number t { t with inbox := t.inbox ++ [notification] } []
  | severed (subscribed : t.phase.isSubscribed = true) : Advance number t { t with severed := true } []

theorem Advance.hasEnded {t : Task} (advance : Advance number t u events) (ended : t.hasEnded = true) :
    u.hasEnded = true := by
  cases advance with
  | kept | cancelled | notified | severed => exact ended
  | stepped step => rw [step.unended] at ended; cases ended

end Task

namespace Fleet

inductive Step (f : Fleet) : Move → Fleet → Prop where
  | rejected (checked : device.checkDriver driverType = .error fault) :
      Step f (.add device) (f.openCall (.returned (.error fault)))
  | added (checked : device.checkDriver driverType = .ok ())
      (absent : Table.get? device.name f.entries = none) :
      Step f (.add device) ((f.register device []).openCall (.waiting f.tasks.length))
  | known (checked : device.checkDriver driverType = .ok ())
      (found : Table.get? device.name f.entries = some entry) (same : (entry.device == device) = true) :
      Step f (.add device) (f.openCall (.returned (.ok ())))
  | replaced (checked : device.checkDriver driverType = .ok ())
      (found : Table.get? device.name f.entries = some entry) (differs : (entry.device == device) = false) :
      Step f (.add device) (((f.cancelTask entry.task).register device entry.requests).openCall
        (.replacing entry.task f.tasks.length))
  | missing (absent : Table.get? name f.entries = none) :
      Step f (.remove name) (f.openCall (.returned (.ok ())))
  | removed (found : Table.get? name f.entries = some entry) :
      Step f (.remove name)
        ({ f with entries := Table.erase name f.entries }.openCall (.clearing [entry.task] [entry.task]))
  | stopped : Step f .stop ({ f with entries := [] }.openCall (.clearing f.registered f.registered))
  | cancelled (clearing : f.calls[call]? = some (.clearing uncancelled held)) (member : task ∈ uncancelled) :
      Step f (.cancelled call task)
        ((f.cancelTask task).setCall call (.clearing (uncancelled.erase task) held))
  | cleared (clearing : f.calls[call]? = some (.clearing [] held))
      (ended : ∀ task ∈ held, f.hasEnded task = true) :
      Step f (.joined call) (f.setCall call (.returned (.ok ())))
  | succeeded (replacing : f.calls[call]? = some (.replacing old created)) (ended : f.hasEnded old = true) :
      Step f (.joined call) (f.setCall call (.waiting created))
  | answered (waiting : f.calls[call]? = some (.waiting created)) (there : f.tasks[created]? = some t)
      (answer : t.answer = some result) : Step f (.answered call) (f.setCall call (.returned result))
  | unanswered (waiting : f.calls[call]? = some (.waiting created)) (there : f.tasks[created]? = some t)
      (answer : t.answer = none) (ended : t.hasEnded = true) :
      Step f (.answered call) (f.setCall call (.returned (.ok ())))
  | gaveUp (waiting : f.calls[call]? = some (.waiting created)) (there : f.tasks[created]? = some t)
      (answer : t.answer = none) : Step f (.gaveUp call) (f.setCall call (.returned (.ok ())))
  | moved (there : f.tasks[number]? = some t) (step : Task.Step number t move e) :
      Step f (.task number move) (f.absorb number t e)
  | notified (there : f.tasks[number]? = some t) (subscribed : t.phase.isSubscribed = true)
      (served : t.severed = false) :
      Step f (.notify number notification)
        (f.setTask number { t with inbox := t.inbox ++ [notification] })
  | severed (there : f.tasks[number]? = some t) (subscribed : t.phase.isSubscribed = true) :
      Step f (.sever number) (f.setTask number { t with severed := true })

theorem add_sound : Step f (.add device) (f.add device) := by
  unfold add
  split
  · rename_i fault checked
    exact .rejected checked
  · rename_i checked
    split
    · rename_i absent
      exact .added checked absent
    · rename_i entry found
      split
      · rename_i same
        exact .known checked found same
      · rename_i differs
        exact .replaced checked found (by simpa using differs)

theorem remove_sound : Step f (.remove name) (f.remove name) := by
  unfold remove
  split
  · rename_i absent
    exact .missing absent
  · rename_i entry found
    exact .removed found

theorem cancel_sound {f : Fleet} (applied : f.cancel call task = some g) : Step f (.cancelled call task) g := by
  unfold cancel at applied
  split at applied
  · rename_i clearing
    split at applied
    · rename_i member
      cases applied
      exact .cancelled clearing member
    · cases applied
  · cases applied

theorem join_sound {f : Fleet} (applied : f.join call = some g) : Step f (.joined call) g := by
  unfold join at applied
  split at applied
  · rename_i clearing
    split at applied
    · rename_i ended
      cases applied
      exact .cleared clearing (List.all_eq_true.mp ended)
    · cases applied
  · rename_i replacing
    split at applied
    · rename_i ended
      cases applied
      exact .succeeded replacing ended
    · cases applied
  · cases applied

theorem takeAnswer_sound {f : Fleet} (applied : f.takeAnswer call = some g) : Step f (.answered call) g := by
  unfold takeAnswer at applied
  split at applied
  · rename_i waiting
    split at applied
    · rename_i there
      split at applied
      · rename_i answer
        cases applied
        exact .answered waiting there answer
      · rename_i answer
        split at applied
        · rename_i ended
          cases applied
          exact .unanswered waiting there answer ended
        · cases applied
    · cases applied
  · cases applied

theorem giveUp_sound {f : Fleet} (applied : f.giveUp call = some g) : Step f (.gaveUp call) g := by
  unfold giveUp at applied
  split at applied
  · rename_i waiting
    split at applied
    · rename_i there
      split at applied
      · rename_i answer
        cases applied
        exact .gaveUp waiting there (by simpa using answer)
      · cases applied
    · cases applied
  · cases applied

theorem moveTask_sound {f : Fleet} (applied : f.moveTask number move = some g) :
    Step f (.task number move) g := by
  unfold moveTask at applied
  split at applied
  · rename_i there
    obtain ⟨e, stepped, rfl⟩ := Option.map_eq_some_iff.mp applied
    exact .moved there (Task.step_sound stepped)
  · cases applied

theorem notify_sound {f : Fleet} (applied : f.notify number notification = some g) :
    Step f (.notify number notification) g := by
  unfold notify at applied
  split at applied
  · rename_i there
    split at applied
    · rename_i guard
      cases applied
      simp only [Bool.and_eq_true, Bool.not_eq_true'] at guard
      exact .notified there guard.1 guard.2
    · cases applied
  · cases applied

theorem sever_sound {f : Fleet} (applied : f.sever number = some g) : Step f (.sever number) g := by
  unfold sever at applied
  split at applied
  · rename_i there
    split at applied
    · rename_i subscribed
      cases applied
      exact .severed there subscribed
    · cases applied
  · cases applied

theorem apply_sound {f : Fleet} (applied : f.apply move = some g) : Step f move g := by
  cases move with
  | add device => cases applied; exact add_sound
  | remove name => cases applied; exact remove_sound
  | stop => cases applied; exact .stopped
  | cancelled call task => exact cancel_sound applied
  | joined call => exact join_sound applied
  | answered call => exact takeAnswer_sound applied
  | gaveUp call => exact giveUp_sound applied
  | task number move => exact moveTask_sound applied
  | notify task notification => exact notify_sound applied
  | sever task => exact sever_sound applied

theorem run_cons_iff {f : Fleet} :
    f.run (move :: moves) = some g ↔ ∃ middle, f.apply move = some middle ∧ middle.run moves = some g := by
  rw [run]
  cases f.apply move <;> simp

theorem run_cons {f : Fleet} (ran : f.run (move :: moves) = some g) :
    ∃ middle, Step f move middle ∧ middle.run moves = some g := by
  obtain ⟨middle, applied, rest⟩ := run_cons_iff.mp ran
  exact ⟨middle, apply_sound applied, rest⟩

theorem run_single {f : Fleet} (applied : f.apply move = some g) : f.run [move] = some g := by
  rw [run, applied]
  rfl

theorem run_append {f : Fleet} (first : f.run earlier = some g) (second : g.run later = some h) :
    f.run (earlier ++ later) = some h := by
  induction earlier generalizing f with
  | nil => cases first; exact second
  | cons move earlier ih =>
    obtain ⟨middle, applied, rest⟩ := run_cons_iff.mp first
    exact run_cons_iff.mpr ⟨middle, applied, ih rest⟩

def trace (f : Fleet) (number : Nat) : List SessionEvent := f.history.filter fun event => event.task = number

theorem trace_append {f g : Fleet} {events : List SessionEvent} (history : g.history = f.history ++ events)
    (own : ∀ event ∈ events, event.task = mover) :
    g.trace number = if mover = number then f.trace number ++ events else f.trace number := by
  rw [trace, history, List.filter_append]
  split
  · rename_i same
    have all : events.filter (fun event => event.task = number) = events :=
      List.filter_eq_self.mpr fun event member => by simp [own event member, same]
    rw [all, trace]
  · rename_i other
    have nothing : events.filter (fun event => event.task = number) = [] :=
      List.filter_eq_nil_iff.mpr fun event member => by simp [own event member, other]
    rw [nothing, List.append_nil, trace]

end Fleet

def Move.Reaches (number : Nat) : Move → Prop
  | .task mover _ => mover = number
  | .notify receiver _ => receiver = number
  | .sever severed => severed = number
  | .add _ | .remove _ | .stop | .cancelled _ _ | .joined _ | .answered _ | .gaveUp _ => False

namespace Fleet

inductive Turn (f : Fleet) (number : Nat) (t : Task) : Move → Fleet → Task → Prop where
  | stepped (step : Task.Step number t move e) : Turn f number t (.task number move) (f.absorb number t e) e.task
  | notified (subscribed : t.phase.isSubscribed = true) (served : t.severed = false) :
      Turn f number t (.notify number notification) g { t with inbox := t.inbox ++ [notification] }
  | severed (subscribed : t.phase.isSubscribed = true) : Turn f number t (.sever number) g { t with severed := true }
  | cancelled (other : ¬ move.Reaches number) : Turn f number t move g t.cancel
  | kept (other : ¬ move.Reaches number) : Turn f number t move g t

theorem Step.turn {f : Fleet} (step : Step f move g) (there : f.tasks[number]? = some t) :
    ∃ u, g.tasks[number]? = some u ∧ Turn f number t move g u := by
  have bound := (List.getElem?_eq_some_iff.mp there).1
  have modified : ∀ (move : Move) {g} (task : Nat), ¬ move.Reaches number →
      ∃ u, (f.tasks.modify task Task.cancel)[number]? = some u ∧ Turn f number t move g u := by
    intro move g task other
    rw [List.getElem?_modify, there]
    by_cases same : task = number
    · exact ⟨t.cancel, by simp [same], .cancelled other⟩
    · exact ⟨t, by simp [same], .kept other⟩
  cases step with
  | rejected | known | missing | removed | stopped | cleared | succeeded | answered | unanswered | gaveUp =>
    exact ⟨t, there, .kept id⟩
  | added => exact ⟨t, (List.getElem?_append_left bound).trans there, .kept id⟩
  | @replaced entry device =>
    obtain ⟨u, present, turn⟩ := modified (.add device) entry.task id
    refine ⟨u, ?_, turn⟩
    rw [← present]
    exact List.getElem?_append_left (by simpa [cancelTask] using bound)
  | @cancelled call uncancelled task held => exact modified _ task id
  | @moved mover old move e mine step =>
    by_cases same : mover = number
    · cases same
      cases there.symm.trans mine
      exact ⟨e.task, List.getElem?_set_self bound, .stepped step⟩
    · exact ⟨t, (List.getElem?_set_ne same).trans there, .kept same⟩
  | @notified mover old notification mine subscribed served =>
    by_cases same : mover = number
    · cases same
      cases there.symm.trans mine
      exact ⟨_, List.getElem?_set_self bound, .notified subscribed served⟩
    · exact ⟨t, (List.getElem?_set_ne same).trans there, .kept same⟩
  | @severed mover old mine subscribed =>
    by_cases same : mover = number
    · cases same
      cases there.symm.trans mine
      exact ⟨_, List.getElem?_set_self bound, .severed subscribed⟩
    · exact ⟨t, (List.getElem?_set_ne same).trans there, .kept same⟩

theorem Turn.advance {f : Fleet} (turn : Turn f number t move g u) : ∃ events, t.Advance number u events := by
  cases turn with
  | stepped own => exact ⟨_, .stepped own⟩
  | notified subscribed => exact ⟨_, .notified subscribed⟩
  | severed subscribed => exact ⟨_, .severed subscribed⟩
  | cancelled => exact ⟨_, .cancelled⟩
  | kept => exact ⟨_, .kept⟩

theorem Step.trace_eq {f : Fleet} (step : Step f move g) (other : ∀ own, move ≠ .task number own) :
    g.trace number = f.trace number := by
  cases step with
  | @moved mover t move e mine step =>
    have grown : (f.absorb mover t e).trace number = _ := trace_append rfl step.events_own
    rw [grown, if_neg]
    rintro rfl
    exact other move rfl
  | _ => rfl

-- A step lets every task advance in its own way, and may create one more.
theorem Step.advances {f : Fleet} (step : Step f move g) (there : f.tasks[number]? = some t) :
    ∃ u events, g.tasks[number]? = some u ∧ t.Advance number u events ∧
      g.trace number = f.trace number ++ events := by
  obtain ⟨u, present, turn⟩ := step.turn there
  have silent : (∀ own, move ≠ .task number own) → g.trace number = f.trace number ++ [] := by
    intro other
    rw [List.append_nil]
    exact step.trace_eq other
  cases turn with
  | @stepped move e own =>
    have grown : (f.absorb number t e).trace number = _ := trace_append rfl own.events_own
    rw [if_pos rfl] at grown
    exact ⟨e.task, e.events, present, .stepped own, grown⟩
  | notified subscribed => exact ⟨_, [], present, .notified subscribed, silent nofun⟩
  | severed subscribed => exact ⟨_, [], present, .severed subscribed, silent nofun⟩
  | cancelled other =>
    refine ⟨_, [], present, .cancelled, silent ?_⟩
    rintro own rfl
    exact other rfl
  | kept other =>
    refine ⟨t, [], present, .kept, silent ?_⟩
    rintro own rfl
    exact other rfl

theorem Step.creates {f : Fleet} (step : Step f move g) (there : g.tasks[number]? = some u)
    (fresh : f.tasks[number]? = none) :
    ∃ device carried, move = .add device ∧ number = f.tasks.length ∧
      u = Task.create device carried f.generation ∧ g.history = f.history := by
  have late : f.tasks.length ≤ number := List.getElem?_eq_none_iff.mp fresh
  have nothing : ∀ {tasks : List Task}, tasks.length = f.tasks.length → tasks[number]? ≠ some u := by
    intro tasks same present
    have bound := (List.getElem?_eq_some_iff.mp present).1
    omega
  have last : ∀ {tasks : List Task} {task : Task}, tasks.length = f.tasks.length →
      (tasks ++ [task])[number]? = some u → number = f.tasks.length ∧ u = task := by
    intro tasks task same present
    rw [List.getElem?_append_right (by omega), List.getElem?_singleton] at present
    split at present
    · exact ⟨by omega, (Option.some.inj present).symm⟩
    · cases present
  cases step with
  | rejected | known | missing | removed | stopped | cleared | succeeded | answered | unanswered | gaveUp =>
    exact absurd there (nothing rfl)
  | @added device =>
    obtain ⟨position, equal⟩ := last rfl there
    exact ⟨device, [], rfl, position, equal, rfl⟩
  | @replaced entry device =>
    obtain ⟨position, equal⟩ := last (List.length_modify ..) there
    exact ⟨device, entry.requests, rfl, position, equal, rfl⟩
  | cancelled => exact absurd there (nothing (List.length_modify ..))
  | moved | notified | severed => exact absurd there (nothing List.length_set)

theorem Step.task_parts {f : Fleet} (step : Step f move g) (there : g.tasks[number]? = some u) :
    (∃ t events, f.tasks[number]? = some t ∧ t.Advance number u events ∧
      g.trace number = f.trace number ++ events) ∨
    ∃ device carried, move = .add device ∧ number = f.tasks.length ∧
      u = Task.create device carried f.generation ∧ g.history = f.history := by
  cases old : f.tasks[number]? with
  | none => exact .inr (step.creates there old)
  | some t =>
    obtain ⟨later, events, present, advance, trace⟩ := step.advances old
    cases there.symm.trans present
    exact .inl ⟨t, events, rfl, advance, trace⟩

theorem Step.length_le {f : Fleet} (step : Step f move g) : f.tasks.length ≤ g.tasks.length := by
  cases step <;> simp [register, openCall, setCall, cancelTask, absorb, setTask]

theorem Step.hasEnded {f : Fleet} (step : Step f move g) (ended : f.hasEnded number = true) :
    g.hasEnded number = true := by
  obtain ⟨t, there, past⟩ := (Option.any_eq_true _ _).mp ended
  obtain ⟨u, events, present, advance, -⟩ := step.advances there
  exact (Option.any_eq_true _ _).mpr ⟨u, present, advance.hasEnded past⟩

theorem forall_calls_set {holds : Call → Prop} {calls : List Call} {mover : Nat} {new : Call}
    (all : ∀ c ∈ calls, holds c) (fine : holds new) : ∀ c ∈ calls.set mover new, holds c := by
  intro c member
  rcases List.mem_or_eq_of_mem_set member with old | rfl
  · exact all c old
  · exact fine

theorem exists_calls_set {holds : Call → Prop} {otherwise : Prop} {calls : List Call} {mover : Nat} {old new : Call}
    (existing : ∃ c ∈ calls, holds c) (mine : calls[mover]? = some old) (releases : holds old → holds new ∨ otherwise) :
    (∃ c ∈ calls.set mover new, holds c) ∨ otherwise := by
  obtain ⟨c, member, held⟩ := existing
  obtain ⟨position, there⟩ := List.mem_iff_getElem?.mp member
  by_cases same : mover = position
  · cases same
    cases mine.symm.trans there
    have bound := (List.getElem?_eq_some_iff.mp there).1
    exact (releases held).imp_left fun still => ⟨new, List.mem_of_getElem? (List.getElem?_set_self bound), still⟩
  · exact .inl ⟨c, List.mem_of_getElem? ((List.getElem?_set_ne same).trans there), held⟩

theorem run_keeps_within {allowed : Move → Prop} {invariant : Fleet → Prop}
    (keeps : ∀ {f move g}, allowed move → invariant f → Step f move g → invariant g)
    (within : ∀ move ∈ moves, allowed move) (holds : invariant f) (ran : f.run moves = some g) :
    invariant g := by
  induction moves generalizing f with
  | nil => cases ran; exact holds
  | cons move moves ih =>
    obtain ⟨middle, step, rest⟩ := run_cons ran
    have kept := keeps (within move List.mem_cons_self) holds step
    exact ih (fun later member => within later (List.mem_cons_of_mem _ member)) kept rest

theorem run_keeps_past {allowed : Move → Prop} {invariant : List Move → Fleet → Prop}
    (keeps : ∀ {past f move g}, allowed move → invariant past f → f.apply move = some g → invariant (past ++ [move]) g)
    (within : ∀ move ∈ moves, allowed move) (holds : invariant past f) (ran : f.run moves = some g) :
    invariant (past ++ moves) g := by
  induction moves generalizing past f with
  | nil => cases ran; rwa [List.append_nil]
  | cons move moves ih =>
    obtain ⟨middle, applied, rest⟩ := run_cons_iff.mp ran
    have kept := keeps (within move List.mem_cons_self) holds applied
    have whole := ih (fun later member => within later (List.mem_cons_of_mem _ member)) kept rest
    rwa [List.append_assoc] at whole

theorem run_keeps {invariant : Fleet → Prop}
    (keeps : ∀ {f move g}, invariant f → Step f move g → invariant g)
    (holds : invariant f) (ran : f.run moves = some g) : invariant g :=
  run_keeps_within (fun _ => keeps) (fun _ _ => trivial) holds ran

-- A fleet that can have come about: any moves after the start of a driver.
def Reached (f : Fleet) : Prop := ∃ settings buses moves, (idle settings buses).run moves = some f

theorem Reached.run {f : Fleet} (reached : Reached f) (ran : f.run moves = some g) : Reached g := by
  obtain ⟨settings, buses, earlier, start⟩ := reached
  exact ⟨settings, buses, earlier ++ moves, run_append start ran⟩

theorem Reached.keeps {invariant : Fleet → Prop} (reached : Reached f)
    (begins : ∀ settings buses, invariant (idle settings buses))
    (keeps : ∀ {f move g}, Reached f → invariant f → Step f move g → invariant g) : invariant f := by
  obtain ⟨settings, buses, moves, ran⟩ := reached
  have later : ∀ {moves : List Move} {f g : Fleet}, Reached f → invariant f → f.run moves = some g → invariant g := by
    intro moves
    induction moves with
    | nil => intro f g _ holds ran; cases ran; exact holds
    | cons move moves ih =>
      intro f g reached holds ran
      obtain ⟨middle, applied, rest⟩ := run_cons_iff.mp ran
      have next : Reached middle := reached.run (run_single applied)
      exact ih next (keeps reached holds (apply_sound applied)) rest
  exact later ⟨settings, buses, [], rfl⟩ (begins settings buses) ran

def unsecured : Settings := ⟨"None", "None", none, none, 10000⟩

def boilerAt (endpoint : Text) : Device :=
  ⟨"boiler", driverType, none, none, none, [("endpoint", .text endpoint)],
    ⟨[⟨"burning", none, .ofType .bool, [("nodeId", .text "i=7")]⟩]⟩⟩

end Fleet
end FieldGateway.OpcUa
