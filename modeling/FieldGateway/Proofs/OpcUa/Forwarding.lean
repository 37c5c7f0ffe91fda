import FieldGateway.Proofs.OpcUa.Handles
import FieldGateway.Proofs.OpcUa.Settling
import FieldGateway.Proofs.Telemetry.Bus

-- What a task makes of the notifications of its server: it takes them in order, and of each the
-- changes in order, until it sees that it was cancelled.
namespace FieldGateway.OpcUa

variable {device : Text} {known : List Request} {number : Nat}

-- What becomes of changes that are worked off at these moments. Of a change that is left out
-- nothing follows for the others.
inductive Conveyed (device : Text) (known : List Request) : List Change → List Int → List Delivery → Prop where
  | nil : Conveyed device known [] [] []
  | passed (present : request ∈ known) (handle : request.handle = change.handle)
      (fits : Value.ofReading request.resource.type change.reading = .ok value)
      (rest : Conveyed device known changes stamps ds) :
      Conveyed device known (change :: changes) (stamp :: stamps)
        (⟨device, ⟨request.resource.name, request.resource.type, value, stamp⟩⟩ :: ds)
  | unknown (absent : ∀ request ∈ known, request.handle ≠ change.handle)
      (rest : Conveyed device known changes stamps ds) :
      Conveyed device known (change :: changes) (stamp :: stamps) ds
  | misfit (present : request ∈ known) (handle : request.handle = change.handle)
      (unfit : Value.ofReading request.resource.type change.reading = .error misfit)
      (rest : Conveyed device known changes stamps ds) :
      Conveyed device known (change :: changes) (stamp :: stamps) ds

theorem Conveyed.append (first : Conveyed device known changes stamps ds)
    (second : Conveyed device known others later more) :
    Conveyed device known (changes ++ others) (stamps ++ later) (ds ++ more) := by
  induction first with
  | nil => exact second
  | passed present handle fits rest ih => exact .passed present handle fits ih
  | unknown absent rest ih => exact .unknown absent ih
  | misfit present handle unfit rest ih => exact .misfit present handle unfit ih

theorem request_eq {one other : Request} (distinct : (known.map Request.handle).Nodup) (present : one ∈ known)
    (also : other ∈ known) (same : one.handle = other.handle) : one = other :=
  List.inj_on_of_nodup_map distinct present also same

theorem Conveyed.unique (distinct : (known.map Request.handle).Nodup) (conveyed : Conveyed device known changes stamps ds)
    (also : Conveyed device known changes stamps more) : ds = more := by
  induction conveyed generalizing more with
  | nil => cases also; rfl
  | @passed request _ value _ _ _ _ present handle fits rest ih =>
    cases also with
    | passed present' handle' fits' rest' =>
      cases request_eq distinct present present' (handle.trans handle'.symm)
      cases fits.symm.trans fits'
      rw [ih rest']
    | unknown absent => exact absurd handle (absent _ present)
    | misfit present' handle' unfit =>
      cases request_eq distinct present present' (handle.trans handle'.symm)
      cases fits.symm.trans unfit
  | unknown absent rest ih =>
    cases also with
    | passed present handle => exact absurd handle (absent _ present)
    | unknown _ rest' => exact ih rest'
    | misfit present handle => exact absurd handle (absent _ present)
  | misfit present handle unfit rest ih =>
    cases also with
    | passed present' handle' fits =>
      cases request_eq distinct present present' (handle.trans handle'.symm)
      cases unfit.symm.trans fits
    | unknown absent => exact absurd handle (absent _ present)
    | misfit _ _ _ rest' => exact ih rest'

theorem Change.conveyed (device : Text) (known : List Request) (stamp : Int) (c : Change) :
    Conveyed device known [c] [stamp] ((c.telemetry? known stamp).map fun telemetry => ⟨device, telemetry⟩).toList := by
  unfold telemetry? Request.find?
  split
  · rename_i absent
    refine .unknown (fun request member => ?_) .nil
    simpa using List.find?_eq_none.mp absent request member
  · rename_i request found
    have present := List.mem_of_find?_eq_some found
    have handle : request.handle = c.handle := by simpa using List.find?_some found
    unfold Telemetry.ofReading
    split
    · rename_i telemetry read
      split at read
      · rename_i value fits
        cases read
        exact .passed present handle fits .nil
      · cases read
    · rename_i fault refused
      split at refused
      · cases refused
      · rename_i misfit unfit
        exact .misfit present handle unfit .nil

def Phase.pending : Phase → List Change
  | forwarding _ next rest => next :: rest
  | _ => []

theorem Phase.known?_isStarting {phase : Phase} (starting : phase.isStarting = true) : phase.known? = none := by
  cases phase <;> first | rfl | cases starting

theorem Phase.known?_isEnded {phase : Phase} (ended : phase.isEnded = true) : phase.known? = none := by
  cases phase <;> first | rfl | cases ended

theorem Phase.pending_workOff (known : List Request) (items : List Change) :
    (workOff known items).pending = items := by
  cases items <;> rfl

namespace Task

variable {t u v : Task} {arrivals : List Notification} {stamps : List Int} {ds : List Delivery}

-- From one moment to another a task has read some of what was there or has arrived, in order, and
-- has worked off the changes in it, in order, except those that are still pending.
def Works (known : List Request) (t : Task) (arrivals : List Notification) (stamps : List Int) (ds : List Delivery)
    (u : Task) : Prop :=
  ∃ read worked, t.inbox ++ arrivals = read ++ u.inbox ∧
    t.phase.pending ++ read.flatMap Notification.items = worked ++ u.phase.pending ∧
    Conveyed t.device.name known worked stamps ds

theorem Works.idle (inbox : u.inbox = t.inbox ++ arrivals) (pending : u.phase.pending = t.phase.pending) :
    Works known t arrivals [] [] u :=
  ⟨[], [], inbox.symm, by simp [pending], .nil⟩

theorem Works.trans (first : Works known t arrivals stamps ds u) (device : u.device = t.device)
    (second : Works known u later moments more v) :
    Works known t (arrivals ++ later) (stamps ++ moments) (ds ++ more) v := by
  obtain ⟨read, worked, inbox, items, conveyed⟩ := first
  obtain ⟨reread, reworked, inbox', items', conveyed'⟩ := second
  rw [device] at conveyed'
  refine ⟨read ++ reread, worked ++ reworked, ?_, ?_, conveyed.append conveyed'⟩
  · rw [← List.append_assoc, inbox, List.append_assoc, inbox', List.append_assoc]
  · rw [List.flatMap_append, ← List.append_assoc, items, List.append_assoc, items', List.append_assoc]

inductive Stops (t : Task) : TaskMove → Prop where
  | seen {known : List Request} (phase : t.phase = .looking known) (cancelled : t.cancelled = true) : Stops t .look
  | hungUp {known : List Request} (phase : t.phase = .reading known) (inbox : t.inbox = [])
      (severed : t.severed = true) : Stops t .hangUp

def IsDone (t : Task) : Prop := t.phase = .closing ∨ t.phase = .ended

end Task

def Move.arrivals (number : Nat) : Move → List Notification
  | .notify receiver notification => if receiver = number then [notification] else []
  | _ => []

def TaskMove.stamps : TaskMove → List Int
  | .forward stamp => [stamp]
  | _ => []

def Move.stamps (number : Nat) : Move → List Int
  | .task mover move => if mover = number then move.stamps else []
  | _ => []

namespace Task

variable {t u : Task}

theorem Step.served (step : Step number t move e) (serving : t.phase.known? = some known) :
    (t.Stops move ∧ e.task.IsDone ∧ e.deliveries = []) ∨
    (e.task.phase.known? = some known ∧ (move = .look → t.cancelled = false) ∧
      t.Works known [] move.stamps e.deliveries e.task) := by
  cases step with
  | dropped cancelled starting => rw [Phase.known?_isStarting starting] at serving; cases serving
  | misplanned phase | began phase | connected phase | refused phase | subscribed phase | unsubscribed phase
  | abandoned phase | finished phase | recorded phase | forgotten phase => rw [phase] at serving; cases serving
  | withdrawn phase cancelled => exact .inl ⟨.seen phase cancelled, .inl rfl, rfl⟩
  | hungUp phase inbox severed => exact .inl ⟨.hungUp phase inbox severed, .inl rfl, rfl⟩
  | looked phase uncancelled =>
    rw [phase] at serving
    exact .inr ⟨serving, fun _ => uncancelled, .idle (List.append_nil _).symm (by rw [phase]; rfl)⟩
  | rested phase =>
    rw [phase] at serving
    exact .inr ⟨serving, nofun, .idle (List.append_nil _).symm (by rw [phase]; rfl)⟩
  | @read before notification rest phase inbox =>
    rw [phase] at serving
    cases serving
    have pending : t.phase.pending = [] := by rw [phase]; rfl
    refine .inr ⟨Phase.known?_workOff _ _, nofun, [notification], [], by simp [inbox], ?_, .nil⟩
    simp [pending, Phase.pending_workOff]
  | @forwarded before next rest stamp phase =>
    rw [phase] at serving
    cases serving
    have pending : t.phase.pending = next :: rest := by rw [phase]; rfl
    refine .inr ⟨Phase.known?_workOff _ _, nofun, [], [next], List.append_nil _, ?_, next.conveyed ..⟩
    simp [pending, enter, Phase.pending_workOff]

theorem Step.done (step : Step number t move e) (done : t.IsDone) : e.task.IsDone ∧ e.deliveries = [] := by
  rcases done with closing | ended
  · cases step with
    | finished => exact ⟨.inr rfl, rfl⟩
    | _ => simp_all [Phase.isStarting]
  · have running := step.unended
    rw [hasEnded, ended] at running
    cases running

end Task

namespace Fleet

variable {f g h : Fleet} {t u w : Task} {moves rest : List Move}

def handed (f : Fleet) : Move → List (Nat × Delivery)
  | .task number move => match f.tasks[number]? with
    | some t => match t.step number move with
      | some e => e.deliveries.map fun d => (number, d)
      | none => []
    | none => []
  | _ => []

def handedBy (f : Fleet) : List Move → List (Nat × Delivery)
  | [] => []
  | move :: moves => f.handed move ++ match f.apply move with
    | some g => g.handedBy moves
    | none => []

def ofTask (number : Nat) (handed : List (Nat × Delivery)) : List Delivery :=
  (handed.filter (·.1 = number)).map Prod.snd

theorem ofTask_append (number : Nat) (first second : List (Nat × Delivery)) :
    ofTask number (first ++ second) = ofTask number first ++ ofTask number second := by
  simp [ofTask]

theorem handed_moved (there : f.tasks[number]? = some t) (step : Task.Step number t move e) :
    f.handed (.task number move) = e.deliveries.map fun d => (number, d) := by
  simp only [handed, there, Task.step_complete step]

theorem ofTask_moved (there : f.tasks[number]? = some t) (step : Task.Step number t move e) :
    ofTask number (f.handed (.task number move)) = e.deliveries := by
  simp [handed_moved there step, ofTask, List.filter_map, Function.comp_def]

theorem ofTask_other (f : Fleet) {move : Move} (other : ∀ own, move ≠ .task number own) :
    ofTask number (f.handed move) = [] := by
  cases move with
  | task mover own =>
    have different : mover ≠ number := by
      rintro rfl
      exact other own rfl
    rw [handed]
    split
    · split <;> simp [ofTask, different]
    · rfl
  | _ => rfl

theorem works_other (f : Fleet) {move : Move} (other : ¬ move.Reaches number) (inbox : u.inbox = t.inbox)
    (phase : u.phase = t.phase) :
    t.Works known (move.arrivals number) (move.stamps number) (ofTask number (f.handed move)) u := by
  have quiet : move.arrivals number = [] ∧ move.stamps number = [] := by
    cases move with
    | task | notify => exact ⟨by simp_all [Move.arrivals, Move.Reaches], by simp_all [Move.stamps, Move.Reaches]⟩
    | _ => exact ⟨rfl, rfl⟩
  rw [quiet.1, quiet.2, ofTask_other]
  · exact .idle (by simp [inbox]) (by rw [phase])
  · rintro own rfl
    exact other rfl

theorem Turn.served (turn : Turn f number t move g u) (there : f.tasks[number]? = some t)
    (serving : t.phase.known? = some known) :
    (∃ own, move = .task number own ∧ t.Stops own ∧ u.IsDone ∧ ofTask number (f.handed move) = []) ∨
    (u.phase.known? = some known ∧ (move = .task number .look → t.cancelled = false) ∧
      t.Works known (move.arrivals number) (move.stamps number) (ofTask number (f.handed move)) u) := by
  cases turn with
  | @stepped move e own =>
    rw [ofTask_moved there own]
    rcases own.served serving with ⟨stops, done, silent⟩ | ⟨still, unseen, works⟩
    · exact .inl ⟨move, rfl, stops, done, silent⟩
    · refine .inr ⟨still, fun same => unseen (by simpa using same), ?_⟩
      simpa [Move.arrivals, Move.stamps] using works
  | notified | severed => exact .inr ⟨serving, nofun, .idle (by simp [Move.arrivals]) rfl⟩
  | cancelled other | kept other =>
    refine .inr ⟨serving, ?_, works_other f other rfl rfl⟩
    rintro rfl
    exact absurd rfl other

theorem Turn.done (turn : Turn f number t move g u) (there : f.tasks[number]? = some t) (done : t.IsDone) :
    u.IsDone ∧ ofTask number (f.handed move) = [] := by
  cases turn with
  | stepped own =>
    rw [ofTask_moved there own]
    exact own.done done
  | notified | severed => exact ⟨done, rfl⟩
  | cancelled other | kept other =>
    refine ⟨done, ofTask_other f ?_⟩
    rintro own rfl
    exact other rfl

theorem Step.buses_eq (step : Step f move g) :
    g.buses = Bus.forwardAll f.buses ((f.handed move).map Prod.snd) := by
  cases step with
  | @moved mover t move e there own =>
    rw [handed_moved there own, List.map_map, Fleet.absorb]
    simp [Function.comp_def]
  | _ => rfl

theorem handedBy_cons (f : Fleet) (applied : f.apply move = some g) :
    f.handedBy (move :: moves) = f.handed move ++ g.handedBy moves := by
  rw [handedBy, applied]

theorem run_buses (ran : f.run moves = some g) :
    g.buses = Bus.forwardAll f.buses ((f.handedBy moves).map Prod.snd) := by
  induction moves generalizing f with
  | nil => cases ran; rfl
  | cons move moves ih =>
    obtain ⟨middle, applied, later⟩ := run_cons_iff.mp ran
    rw [handedBy_cons f applied, List.map_append, ih later, (apply_sound applied).buses_eq]
    exact (List.foldl_append ..).symm

theorem run_done (ran : f.run moves = some g) (there : f.tasks[number]? = some t) (done : t.IsDone) :
    ofTask number (f.handedBy moves) = [] := by
  induction moves generalizing f t with
  | nil => rfl
  | cons move moves ih =>
    obtain ⟨middle, applied, later⟩ := run_cons_iff.mp ran
    obtain ⟨u, present, turn⟩ := (apply_sound applied).turn there
    obtain ⟨still, silent⟩ := turn.done there done
    rw [handedBy_cons f applied, ofTask_append, silent, ih later present still]
    rfl

def Unseen (f : Fleet) (number : Nat) (moves : List Move) : Prop :=
  ∀ before after h t, moves = before ++ .task number .look :: after → f.run before = some h →
    h.tasks[number]? = some t → t.cancelled = false

theorem Unseen.cons (unseen : Unseen g number moves) (applied : f.apply move = some g) (there : f.tasks[number]? = some t)
    (first : move = .task number .look → t.cancelled = false) : Unseen f number (move :: moves) := by
  intro before after h u split ran present
  cases before with
  | nil =>
    cases ran
    cases there.symm.trans present
    exact first (List.cons.inj split).1
  | cons earlier before =>
    obtain ⟨rfl, later⟩ := List.cons.inj split
    rw [run, applied] at ran
    exact unseen before after h u later ran present

-- The loop of a task over a run in which it goes on.
structure Serves (f : Fleet) (number : Nat) (known : List Request) (t : Task) (moves : List Move) (g : Fleet)
    (u : Task) : Prop where
  ran : f.run moves = some g
  there : g.tasks[number]? = some u
  serving : u.phase.known? = some known
  unseen : f.Unseen number moves
  works : t.Works known (moves.flatMap (Move.arrivals number)) (moves.flatMap (Move.stamps number))
    (ofTask number (f.handedBy moves)) u

theorem Serves.nil (there : f.tasks[number]? = some t) (serving : t.phase.known? = some known) :
    f.Serves number known t [] f t := by
  refine ⟨rfl, there, serving, ?_, .idle (List.append_nil _).symm rfl⟩
  intro before after h u split
  cases before <;> cases split

theorem Serves.cons (applied : f.apply move = some g) (there : f.tasks[number]? = some t)
    (first : move = .task number .look → t.cancelled = false) (device : u.device = t.device)
    (works : t.Works known (move.arrivals number) (move.stamps number) (ofTask number (f.handed move)) u)
    (serves : g.Serves number known u moves h w) : f.Serves number known t (move :: moves) h w := by
  refine ⟨?_, serves.there, serves.serving, serves.unseen.cons applied there first, ?_⟩
  · exact run_cons_iff.mpr ⟨g, applied, serves.ran⟩
  · rw [handedBy_cons f applied, ofTask_append]
    exact works.trans device serves.works

inductive Cut (number : Nat) (t : Task) : List Move → Prop where
  | running : Cut number t []
  | stopped (stops : t.Stops own) : Cut number t (.task number own :: after)

theorem run_serves (ran : f.run moves = some g) (there : f.tasks[number]? = some t)
    (serving : t.phase.known? = some known) :
    ∃ served rest h u, moves = served ++ rest ∧ f.Serves number known t served h u ∧ Cut number u rest ∧
      ofTask number (f.handedBy moves) = ofTask number (f.handedBy served) := by
  induction moves generalizing f t with
  | nil => exact ⟨[], [], f, t, rfl, .nil there serving, .running, rfl⟩
  | cons move moves ih =>
    obtain ⟨middle, applied, later⟩ := run_cons_iff.mp ran
    obtain ⟨u, present, turn⟩ := (apply_sound applied).turn there
    rcases turn.served there serving with ⟨own, rfl, stops, done, silent⟩ | ⟨still, unseen, works⟩
    · refine ⟨[], _, f, t, rfl, .nil there serving, .stopped stops, ?_⟩
      rw [handedBy_cons f applied, ofTask_append, silent, run_done later present done]
      rfl
    · obtain ⟨served, rest, h, w, rfl, serves, cut, same⟩ := ih later present still
      obtain ⟨events, advance⟩ := turn.advance
      refine ⟨move :: served, rest, h, w, rfl, .cons applied there unseen advance.basis_eq.1 works serves, cut, ?_⟩
      rw [handedBy_cons f applied, handedBy_cons f applied, ofTask_append, ofTask_append, same]

theorem Cut.pending (cut : Cut number u rest) (more : rest ≠ []) : u.phase.pending = [] := by
  cases cut with
  | running => exact absurd rfl more
  | stopped stops => cases stops with
    | seen phase | hungUp phase => rw [phase]; rfl

-- A device that is served, in any run, with buses that refuse whatever they like. The loop of its
-- task goes on until a look sees that the task was cancelled, or the server has hung up and
-- everything is read. Until then the notifications are read in the order in which they came, and
-- of their changes exactly those that fit a known request have become results, in their order.
-- All buses are offered the same, and when the task waits nothing is left to be worked off.
theorem telemetry_forwarded (reached : Reached f) (there : f.tasks[number]? = some t)
    (serving : t.phase = .looking known) (ran : f.run moves = some g) :
    (known.map Request.handle).Nodup ∧
    g.buses = f.buses.map (fun b => { b with offered := b.offered ++ (f.handedBy moves).map Prod.snd }) ∧
    ∃ served rest h u read worked,
      moves = served ++ rest ∧ f.run served = some h ∧ h.tasks[number]? = some u ∧
      u.phase.known? = some known ∧ f.Unseen number served ∧ Cut number u rest ∧
      t.inbox ++ served.flatMap (Move.arrivals number) = read ++ u.inbox ∧
      read.flatMap Notification.items = worked ++ u.phase.pending ∧
      (∀ ds, Conveyed t.device.name known worked (served.flatMap (Move.stamps number)) ds ↔
        ds = ofTask number (f.handedBy moves)) ∧
      (rest ≠ [] → u.phase.pending = []) ∧ (u.Waits number → u.inbox = [] ∧ u.phase.pending = []) := by
  have knows : t.phase.known? = some known := by rw [serving]; rfl
  have distinct : (known.map Request.handle).Nodup := by
    have informed := reached.informed.tasks number t there
    exact ((informed.known known knows).numbered informed.carried).nodup
  obtain ⟨served, rest, h, u, split, serves, cut, same⟩ := run_serves ran there knows
  obtain ⟨read, worked, inbox, items, conveyed⟩ := serves.works
  have nothing : t.phase.pending = [] := by rw [serving]; rfl
  rw [nothing, List.nil_append] at items
  rw [← same] at conveyed
  refine ⟨distinct, (run_buses ran).trans (Bus.forwardAll_eq ..), served, rest, h, u, read, worked, split, serves.ran,
    serves.there, serves.serving, serves.unseen, cut, inbox, items, ?_, cut.pending, ?_⟩
  · intro ds
    constructor
    · exact fun other => other.unique distinct conveyed
    · rintro rfl
      exact conveyed
  · intro waits
    have still := serves.serving
    rcases waits.cases with ended | ⟨-, ⟨phase⟩ | ⟨phase⟩ | ⟨phase, empty, -⟩⟩
    · rw [Phase.known?_isEnded ended] at still
      cases still
    · rw [phase] at still
      cases still
    · rw [phase] at still
      cases still
    · exact ⟨empty, by rw [phase]; rfl⟩

def stubborn : Bus := ⟨"stubborn", fun _ => some (.connectionFailure "gone"), []⟩

def afterRemoval : List Move :=
  [.notify 0 .event, .notify 0 (.changes [⟨7, .null⟩, ⟨42, .bool true⟩, ⟨42, .text "hot"⟩]), .task 0 .look, .task 0 .read,
    .task 0 .look, .task 0 .read, .task 0 (.forward 1), .remove "boiler", .cancelled 1 0, .task 0 (.forward 2),
    .task 0 (.forward 3), .notify 0 (.changes [⟨42, .bool false⟩]), .task 0 .look]

theorem telemetry_forwarded_removed :
    ∃ f g known worked stamps, (idle unsecured [stubborn]).run [.add (boilerAt "a"), .task 0 .begin, .task 0 .connected,
        .task 0 .subscribed, .task 0 .record] = some f ∧ f.run afterRemoval = some g ∧
      Conveyed "boiler" known worked stamps [⟨"boiler", ⟨"burning", .bool, .bool true, 2⟩⟩] ∧
      g.buses.map Bus.offered = [[⟨"boiler", ⟨"burning", .bool, .bool true, 2⟩⟩]] := by
  obtain ⟨f, g, t, known, start, there, device, serving, ran, buses, handed⟩ : ∃ f g t known,
      (idle unsecured [stubborn]).run [.add (boilerAt "a"), .task 0 .begin, .task 0 .connected, .task 0 .subscribed,
        .task 0 .record] = some f ∧ f.tasks[0]? = some t ∧ t.device = boilerAt "a" ∧ t.phase = .looking known ∧
      f.run afterRemoval = some g ∧ f.buses = [stubborn] ∧
      f.handedBy afterRemoval = [(0, ⟨"boiler", ⟨"burning", .bool, .bool true, 2⟩⟩)] :=
    ⟨_, _, _, _, rfl, rfl, rfl, rfl, rfl, rfl, rfl⟩
  obtain ⟨-, offered, served, -, -, -, -, worked, -, -, -, -, -, -, -, -, conveyed, -⟩ :=
    telemetry_forwarded ⟨_, _, _, start⟩ there serving ran
  rw [handed, device] at conveyed
  refine ⟨f, g, known, worked, _, start, ran, (conveyed _).mpr rfl, ?_⟩
  rw [offered, buses, handed]
  rfl

end Fleet

end FieldGateway.OpcUa
