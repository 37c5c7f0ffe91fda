import FieldGateway.Proofs.OpcUa.Moves

-- Tasks that are left to themselves come to an end with what they can do. Each of them then has
-- ended or waits for its server.
namespace FieldGateway.OpcUa

def TaskMove.isReply : TaskMove → Bool
  | .connected | .refused _ | .subscribed | .unsubscribed _ => true
  | .drop | .begin | .sessionClosed | .record | .forget | .look | .read | .forward _ | .rest | .hangUp => false

namespace Task

def GoesOn (number : Nat) (t : Task) (move : TaskMove) (e : Effect) : Prop :=
  Step number t move e ∧ move.isReply = false ∧ (move = .rest → t.cancelled = true)

def Waits (number : Nat) (t : Task) : Prop := ∀ move e, ¬ t.GoesOn number move e

inductive Served (t : Task) : Prop where
  | connecting (phase : t.phase = .connecting fresh)
  | subscribing (phase : t.phase = .subscribing fresh)
  | subscribed (phase : t.phase = .reading known) (inbox : t.inbox = []) (unsevered : t.severed = false)

theorem Served.waits {t : Task} (served : t.Served) (uncancelled : t.cancelled = false) : t.Waits number := by
  rintro move e ⟨step, own, awake⟩
  cases served with
  | connecting phase | subscribing phase =>
    cases step <;> simp_all [TaskMove.isReply]
  | subscribed phase inbox unsevered =>
    cases step <;> simp_all

theorem waits_of_hasEnded {t : Task} (ended : t.hasEnded = true) : t.Waits number := by
  rintro move e ⟨step, -, -⟩
  rw [step.unended] at ended
  cases ended

theorem Waits.cases {t : Task} (waits : t.Waits number) : t.hasEnded = true ∨ (t.cancelled = false ∧ t.Served) := by
  have stuck : ∀ {move e}, Step number t move e → move.isReply = false → (move = .rest → t.cancelled = true) → False :=
    fun step own awake => waits _ _ ⟨step, own, awake⟩
  have kept : t.phase.isStarting = true → t.cancelled = false := by
    intro starting
    cases cancelled : t.cancelled with
    | false => rfl
    | true => exact (stuck (.dropped cancelled starting) rfl nofun).elim
  cases phase : t.phase with
  | created =>
    cases planned : t.plan with
    | error defect => exact (stuck (.misplanned phase planned) rfl nofun).elim
    | ok target => exact (stuck (.began phase planned) rfl nofun).elim
  | connecting fresh => exact .inr ⟨kept (by rw [phase]; rfl), .connecting phase⟩
  | subscribing fresh => exact .inr ⟨kept (by rw [phase]; rfl), .subscribing phase⟩
  | abandoning fault => exact (stuck (.abandoned phase) rfl nofun).elim
  | recording fresh => exact (stuck (.recorded phase) rfl nofun).elim
  | failed fault => exact (stuck (.forgotten phase) rfl nofun).elim
  | looking known =>
    cases cancelled : t.cancelled with
    | true => exact (stuck (.withdrawn phase cancelled) rfl nofun).elim
    | false => exact (stuck (.looked phase cancelled) rfl nofun).elim
  | reading known =>
    cases inbox : t.inbox with
    | cons notification rest => exact (stuck (.read phase inbox) rfl nofun).elim
    | nil =>
      cases severed : t.severed with
      | true => exact (stuck (.hungUp phase inbox severed) rfl nofun).elim
      | false =>
        cases cancelled : t.cancelled with
        | true => exact (stuck (.rested phase inbox severed) rfl fun _ => cancelled).elim
        | false => exact .inr ⟨rfl, .subscribed phase inbox severed⟩
  | forwarding known next rest =>
    have step : Step number t (.forward 0) _ := .forwarded phase
    exact (stuck step rfl nofun).elim
  | closing => exact (stuck (.finished phase) rfl nofun).elim
  | ended => exact .inl (by rw [hasEnded, phase]; rfl)

def backlog : List Notification → Nat
  | [] => 0
  | notification :: rest => notification.items.length + 3 + backlog rest

-- How much a task can do by itself, at the most.
def work (t : Task) : Nat :=
  backlog t.inbox +
  match t.phase with
  | .recording _ => 5
  | .looking _ => if t.cancelled then 2 else 4
  | .reading _ => 3
  | .forwarding _ _ rest => rest.length + 5
  | .created | .abandoning _ => 2
  | .connecting _ | .subscribing _ | .failed _ | .closing => 1
  | .ended => 0

theorem work_workOff (t : Task) (phase : t.phase = .workOff known items) :
    t.work ≤ backlog t.inbox + items.length + 4 := by
  rw [work, phase]
  cases items with
  | nil =>
    simp only [Phase.workOff, List.length_nil]
    split <;> omega
  | cons next rest =>
    simp only [Phase.workOff, List.length_cons]
    omega

theorem GoesOn.work_lt {t : Task} (goesOn : t.GoesOn number move e) : e.task.work < t.work := by
  obtain ⟨step, own, awake⟩ := goesOn
  cases step with
  | connected | refused | subscribed | unsubscribed => cases own
  | dropped cancelled starting =>
    refine Nat.add_lt_add_left ?_ _
    cases phase : t.phase <;> simp_all [enter, Phase.isStarting]
  | misplanned phase | began phase | abandoned phase | finished phase | forgotten phase | hungUp phase =>
    refine Nat.add_lt_add_left ?_ _
    simp [phase, enter]
  | recorded phase =>
    refine Nat.add_lt_add_left ?_ _
    simp only [phase]
    split <;> omega
  | withdrawn phase cancelled =>
    refine Nat.add_lt_add_left ?_ _
    simp [phase, cancelled, enter]
  | looked phase uncancelled =>
    refine Nat.add_lt_add_left ?_ _
    simp [phase, uncancelled, enter]
  | @read known notification rest phase inbox =>
    have bound := work_workOff { t with phase := .workOff known notification.items, inbox := rest } rfl
    refine Nat.lt_of_le_of_lt bound ?_
    simp only [work, phase, inbox, backlog]
    omega
  | @forwarded known next rest stamp phase =>
    have bound := work_workOff (t.enter (.workOff known rest)) rfl
    refine Nat.lt_of_le_of_lt bound ?_
    simp only [work, phase, enter]
    omega
  | rested phase =>
    refine Nat.add_lt_add_left ?_ _
    simp [phase, awake rfl, enter]

end Task

def Move.IsOwn : Move → Prop
  | .task _ move => move.isReply = false
  | _ => False

namespace Fleet

variable {f : Fleet} {t u : Task} {number : Nat}

def Settled (f : Fleet) : Prop := ∀ (number : Nat) (t : Task), f.tasks[number]? = some t → t.Waits number

theorem settled_of_single (tasks : f.tasks = [t]) (waits : ∀ number, t.Waits number) : f.Settled := by
  intro number only there
  rw [tasks] at there
  cases List.mem_singleton.mp (List.mem_of_getElem? there)
  exact waits number

def workOf : List Task → Nat
  | [] => 0
  | t :: rest => t.work + workOf rest

theorem workOf_set_lt {tasks : List Task} (there : tasks[number]? = some t) (less : u.work < t.work) :
    workOf (tasks.set number u) < workOf tasks := by
  induction tasks generalizing number with
  | nil => cases there
  | cons first tasks ih =>
    cases number with
    | zero =>
      cases there
      exact Nat.add_lt_add_right less _
    | succ number => exact Nat.add_lt_add_left (ih there) _

-- However a fleet stands, its tasks come to an end with what they can do by themselves.
theorem settles (f : Fleet) : ∃ moves g, (∀ move ∈ moves, move.IsOwn) ∧ f.run moves = some g ∧ g.Settled := by
  by_cases settled : f.Settled
  · exact ⟨[], f, List.forall_mem_nil _, rfl, settled⟩
  · simp only [Settled, Task.Waits, Classical.not_forall, Classical.not_not] at settled
    obtain ⟨number, t, there, move, e, goesOn⟩ := settled
    have less : workOf (f.absorb number t e).tasks < workOf f.tasks := workOf_set_lt there goesOn.work_lt
    obtain ⟨moves, g, own, ran, settled⟩ := settles (f.absorb number t e)
    refine ⟨.task number move :: moves, g, ?_, ?_, settled⟩
    · intro other member
      rcases List.mem_cons.mp member with rfl | later
      · exact goesOn.2.1
      · exact own other later
    · have applied : f.apply (.task number move) = some (f.absorb number t e) := by
        simp only [apply, moveTask, there, Task.step_complete goesOn.1, Option.map_some]
      rw [run, applied]
      exact ran
termination_by workOf f.tasks

end Fleet
end FieldGateway.OpcUa
