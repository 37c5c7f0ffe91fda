import FieldGateway.OpcUa.Dispatch
import FieldGateway.Proofs.OpcUa.Answers
import FieldGateway.Proofs.OpcUa.Custody
import FieldGateway.Proofs.OpcUa.Session

-- Whatever order the queue brings about is one of those that a fleet allows: every turn is a run
-- of moves. So what holds of all runs holds of the fleets that are dispatched.
namespace FieldGateway.OpcUa

namespace Fleet

variable {f g h : Fleet}

def Leads (f g : Fleet) : Prop := ∃ moves, f.run moves = some g

theorem Leads.refl (f : Fleet) : f.Leads f := ⟨[], rfl⟩

theorem Leads.trans (first : f.Leads g) (second : g.Leads h) : f.Leads h := by
  obtain ⟨earlier, ran⟩ := first
  obtain ⟨later, continued⟩ := second
  exact ⟨earlier ++ later, run_append ran continued⟩

theorem Leads.apply (applied : f.apply move = some g) : f.Leads g := ⟨[move], run_single applied⟩

theorem Leads.attempt (f : Fleet) (move : Move) : f.Leads ((f.apply move).getD f) := by
  cases applied : f.apply move with
  | none => exact .refl f
  | some g => exact .apply applied

theorem Leads.foldl {go : Fleet → α → Fleet} (goes : ∀ (f : Fleet) x, f.Leads (go f x)) (xs : List α) (f : Fleet) :
    f.Leads (xs.foldl go f) := by
  induction xs generalizing f with
  | nil => exact .refl f
  | cons x xs ih => exact (goes f x).trans (ih _)

end Fleet

namespace Dispatch

variable {servers : Servers} {stamp : Int} {d : Dispatch} {f : Fleet}

theorem advance_leads : f.Leads (advance servers stamp number fuel f) := by
  induction fuel generalizing f with
  | zero => exact .refl f
  | succ fuel ih =>
    unfold advance
    split
    · exact .refl f
    · split
      · exact .refl f
      · split
        · exact .refl f
        · rename_i applied
          split
          · exact .apply applied
          · exact (Fleet.Leads.apply applied).trans ih

theorem turnOfTask_leads : f.Leads (turnOfTask servers stamp number f) := by
  unfold turnOfTask
  split
  · exact .refl f
  · split
    · exact .attempt f _
    · exact advance_leads

theorem cancelAll_leads : f.Leads (cancelAll call f) := by
  unfold cancelAll
  split
  · exact .foldl (fun f task => .attempt f (.cancelled call task)) _ f
  · exact .refl f

theorem turnOfCall_leads : d.fleet.Leads (turnOfCall call d).fleet := by
  have joined : d.fleet.Leads ((d.fleet.join call).getD d.fleet) := .attempt d.fleet (.joined call)
  have takes : ∀ {f g : Fleet}, f.takeAnswer call = some g → f.Leads g :=
    fun {f g} taken => .apply (show f.apply (.answered call) = some g from taken)
  have givesUp : ∀ f : Fleet, f.Leads ((f.giveUp call).getD f) := fun f => .attempt f (.gaveUp call)
  dsimp only [turnOfCall]
  split
  · rename_i taken
    exact joined.trans (takes taken)
  · split
    · split
      · split
        · exact joined.trans (givesUp _)
        · exact joined
      · split
        · exact joined.trans (givesUp _)
        · exact joined
    · exact joined

theorem takeTurn_leads (turn : Turn) : d.fleet.Leads (takeTurn servers stamp d turn).fleet := by
  cases turn with
  | task number => exact turnOfTask_leads
  | call number => exact turnOfCall_leads

theorem drainWithin_leads : d.fleet.Leads (drainWithin servers stamp fuel d).fleet := by
  induction fuel generalizing d with
  | zero => exact .refl d.fleet
  | succ fuel ih =>
    unfold drainWithin
    split
    · exact .refl d.fleet
    · rename_i turn rest _
      exact (takeTurn_leads (d := { d with queue := rest }) turn).trans ih

theorem drain_leads : d.fleet.Leads (drain servers stamp d).fleet := drainWithin_leads

theorem enqueue_fleet (d : Dispatch) (turn : Turn) : (d.enqueue turn).fleet = d.fleet := by
  unfold enqueue
  split <;> rfl

theorem enqueueAll_fleet {turns : List α} (turn : α → Turn) (d : Dispatch) :
    (turns.foldl (fun d x => d.enqueue (turn x)) d).fleet = d.fleet := by
  induction turns generalizing d with
  | nil => rfl
  | cons x turns ih => exact (ih _).trans (enqueue_fleet d (turn x))

theorem issue_leads (move : Move) : d.fleet.Leads (issue d move).1.fleet := by
  dsimp only [issue]
  split
  · exact .refl d.fleet
  · rename_i f applied
    have begun : d.fleet.Leads (cancelAll d.fleet.calls.length f) :=
      (Fleet.Leads.apply applied).trans cancelAll_leads
    refine begun.trans (.trans ?_ turnOfCall_leads)
    rw [enqueueAll_fleet]
    exact .refl _

theorem passTime_fleet (passed : passTime d = some later) : later.fleet = d.fleet := by
  dsimp only [passTime] at passed
  split at passed
  · cases passed
  · cases passed
    exact enqueueAll_fleet (fun due : Nat × Nat => .call due.1) _

theorem finishWithin_leads : d.fleet.Leads (finishWithin servers stamp call fuel d).fleet := by
  induction fuel generalizing d with
  | zero => exact .refl d.fleet
  | succ fuel ih =>
    dsimp only [finishWithin]
    split
    · exact drain_leads
    · split
      · exact drain_leads
      · rename_i later passed
        have rest : later.fleet.Leads (finishWithin servers stamp call fuel later).fleet := ih
        rw [passTime_fleet passed] at rest
        exact drain_leads.trans rest

theorem finish_leads : d.fleet.Leads (finish servers stamp call d).fleet := finishWithin_leads

theorem notify_leads (notified : d.notify task notification = some later) : d.fleet.Leads later.fleet := by
  obtain ⟨f, applied, rfl⟩ := Option.map_eq_some_iff.mp notified
  rw [enqueue_fleet]
  exact .apply applied

theorem sever_leads (severed : d.sever task = some later) : d.fleet.Leads later.fleet := by
  obtain ⟨f, applied, rfl⟩ := Option.map_eq_some_iff.mp severed
  rw [enqueue_fleet]
  exact .apply applied

theorem wakeTasks_fleet (d : Dispatch) : (wakeTasks d).fleet = d.fleet := enqueueAll_fleet .task d

-- What the owner of a fleet and its servers can do. Servers may answer otherwise every time.
inductive Happens (d : Dispatch) : Dispatch → Prop where
  | issued : Happens d (issue d move).1
  | drained (servers : Servers) (stamp : Int) : Happens d (drain servers stamp d)
  | finished (servers : Servers) (stamp : Int) : Happens d (finish servers stamp call d)
  | notified (arrived : d.notify task notification = some later) : Happens d later
  | severed (arrived : d.sever task = some later) : Happens d later
  | awoken : Happens d (wakeTasks d)

inductive Dispatched : Dispatch → Prop where
  | idle (settings : Settings) (buses : List Bus) : Dispatched (ofFleet (Fleet.idle settings buses))
  | next {earlier later : Dispatch} (before : Dispatched earlier) (happens : Happens earlier later) :
    Dispatched later

theorem Happens.leads (happens : Happens d later) : d.fleet.Leads later.fleet := by
  cases happens with
  | issued => exact issue_leads _
  | drained => exact drain_leads
  | finished => exact finish_leads
  | notified arrived => exact notify_leads arrived
  | severed arrived => exact sever_leads arrived
  | awoken =>
    rw [wakeTasks_fleet]
    exact .refl _

theorem Dispatched.reached (dispatched : Dispatched d) : Fleet.Reached d.fleet := by
  induction dispatched with
  | idle settings buses => exact ⟨settings, buses, [], rfl⟩
  | next _ happens ih =>
    obtain ⟨moves, ran⟩ := happens.leads
    exact ih.run ran

-- The invariants of every order hold of the one that the queue brings about: each registration
-- has a task of its own, tasks out of the registry are on their way to their end, what a task
-- has answered fits how far it has come, and so does what its server has seen.
theorem Dispatched.orderly (dispatched : Dispatched d) :
    d.fleet.Sound ∧ d.fleet.Kept ∧ d.fleet.Candid ∧
      ∀ number, Session.Shape number (d.fleet.trace number) :=
  have reached := dispatched.reached
  ⟨reached.sound, reached.kept, reached.candid, reached.truthful.shape⟩

end Dispatch
end FieldGateway.OpcUa
