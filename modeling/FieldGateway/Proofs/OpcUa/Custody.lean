import FieldGateway.Proofs.OpcUa.Registry
import FieldGateway.Proofs.Telemetry.Bus

-- Whoever takes a task out of the registry answers for it: it waits until the task has ended. So
-- a removal leaves no task of its device behind, except those that another call has taken
-- before it and still waits for.
namespace FieldGateway.OpcUa

def Call.held : Call → List Nat
  | clearing _ tasks => tasks
  | replacing old _ => [old]
  | waiting _ | returned _ => []

def Move.Withdraws (name : Text) : Move → Prop
  | .remove other => other = name
  | .stop => True
  | _ => False

def Move.Adds (name : Text) : Move → Prop
  | .add device => device.name = name
  | _ => False

theorem Task.Advance.device_eq {t : Task} (advance : t.Advance number u events) : u.device = t.device := by
  cases advance with
  | kept | cancelled | notified | severed => rfl
  | stepped step => exact congrArg Prod.fst step.origin_eq

theorem Task.Step.delivers_own {t : Task} (step : Task.Step number t move e) :
    ∀ d ∈ e.deliveries, d.device = t.device.name := by
  cases step with
  | @forwarded known next rest stamp =>
    intro d member
    obtain ⟨telemetry, -, rfl⟩ := Option.map_eq_some_iff.mp (Option.mem_toList.mp member)
    rfl
  | _ => exact List.forall_mem_nil _

namespace Fleet

variable {f g h : Fleet} {t : Task} {entry : Entry} {name : Text} {number call : Nat}

def Holds (f : Fleet) (call number : Nat) : Prop := ∃ c, f.calls[call]? = some c ∧ number ∈ c.held

def Owns (f : Fleet) (name : Text) (number : Nat) : Prop :=
  ∃ entry, f.registration? name = some entry ∧ entry.task = number

def Kept (f : Fleet) : Prop :=
  ∀ (number : Nat) (t : Task), f.tasks[number]? = some t → t.hasEnded = false →
    f.Owns t.device.name number ∨ ∃ call, f.Holds call number

theorem Holds.congr (holds : f.Holds call number) (calls : g.calls = f.calls) : g.Holds call number := by
  unfold Holds
  rwa [calls]

theorem Holds.openCall (holds : f.Holds call number) (calls : g.calls = f.calls ++ [c]) :
    g.Holds call number := by
  obtain ⟨c, there, member⟩ := holds
  refine ⟨c, ?_, member⟩
  rw [calls]
  exact (List.getElem?_append_left (List.getElem?_eq_some_iff.mp there).1).trans there

theorem holds_opened (calls : g.calls = f.calls ++ [c]) (member : number ∈ c.held) :
    g.Holds f.calls.length number := by
  refine ⟨c, ?_, member⟩
  rw [calls]
  exact List.getElem?_concat_length

theorem Holds.setCall (holds : f.Holds call number) (calls : g.calls = f.calls.set mover new)
    (mine : f.calls[mover]? = some old) (releases : number ∈ old.held → number ∈ new.held ∨ g.hasEnded number = true) :
    g.Holds call number ∨ g.hasEnded number = true := by
  obtain ⟨c, there, member⟩ := holds
  unfold Holds
  rw [calls]
  by_cases same : mover = call
  · cases same
    cases mine.symm.trans there
    have bound := (List.getElem?_eq_some_iff.mp there).1
    exact (releases member).imp_left fun still => ⟨new, List.getElem?_set_self bound, still⟩
  · exact .inl ⟨c, (List.getElem?_set_ne same).trans there, member⟩

theorem Holds.step (holds : f.Holds call number) (step : Step f move g) :
    g.Holds call number ∨ g.hasEnded number = true := by
  cases step with
  | rejected | added | known | replaced | missing | removed | stopped => exact .inl (holds.openCall rfl)
  | cancelled clearing => exact holds.setCall rfl clearing .inl
  | cleared clearing ended => exact holds.setCall rfl clearing fun member => .inr (ended number member)
  | succeeded replacing ended =>
    refine holds.setCall rfl replacing fun member => .inr ?_
    cases List.mem_singleton.mp member
    exact ended
  | answered waiting | unanswered waiting | gaveUp waiting =>
    exact holds.setCall rfl waiting fun member => absurd member List.not_mem_nil
  | moved | notified | severed => exact .inl (holds.congr rfl)

theorem Holds.run (holds : f.Holds call number) (ran : f.run moves = some g) :
    g.Holds call number ∨ g.hasEnded number = true := by
  have keeps : ∀ {f : Fleet} {move g}, (f.Holds call number ∨ f.hasEnded number = true) → Step f move g →
      (g.Holds call number ∨ g.hasEnded number = true) := by
    intro f move g held step
    rcases held with holds | ended
    · exact holds.step step
    · exact .inr (step.hasEnded ended)
  exact run_keeps keeps (.inl holds) ran

-- An entry goes away together with its task, or is handed over to the call that takes it.
theorem Owns.step (sound : Sound f) (owns : f.Owns name number) (step : Step f move g) :
    g.Owns name number ∨ g.Holds f.calls.length number ∨ g.hasEnded number = true := by
  obtain ⟨entry, found, rfl⟩ := owns
  cases step with
  | rejected | known | missing | cancelled | cleared | succeeded | answered | unanswered | gaveUp | notified
  | severed => exact .inl ⟨entry, found, rfl⟩
  | @added device checked absent =>
    refine .inl ⟨entry, (Table.get?_put ..).trans ((if_neg ?_).trans found), rfl⟩
    rintro rfl
    cases absent.symm.trans found
  | @replaced old device checked present =>
    by_cases same : name = device.name
    · cases same
      cases present.symm.trans found
      exact .inr (.inl (holds_opened rfl List.mem_cons_self))
    · exact .inl ⟨entry, (Table.get?_put ..).trans ((if_neg same).trans found), rfl⟩
  | @removed other old present =>
    by_cases same : name = other
    · cases same
      cases present.symm.trans found
      exact .inr (.inl (holds_opened rfl List.mem_cons_self))
    · exact .inl ⟨entry, sound.ascending.get?_erase.trans ((if_neg same).trans found), rfl⟩
  | stopped =>
    exact .inr (.inl (holds_opened rfl (List.mem_map_of_mem (Table.get?_mem found))))
  | @moved mover t move e there step =>
    rcases sound.absorb_registration? there e name with
      same | ⟨mine, present, own, ⟨known, -, noted⟩ | ⟨edit, -⟩⟩
    · exact .inl ⟨entry, same.trans found, rfl⟩
    · cases present.symm.trans found
      exact .inl ⟨_, noted, rfl⟩
    · cases present.symm.trans found
      cases own
      have bound := (List.getElem?_eq_some_iff.mp there).1
      refine .inr (.inr ((Option.any_eq_true _ _).mpr ⟨e.task, List.getElem?_set_self bound, ?_⟩))
      cases step with
      | forgotten => rfl
      | _ => cases edit

theorem owns_created (step : Step f (.add device) g) (fresh : g.tasks[f.tasks.length]? = some t) :
    g.Owns device.name f.tasks.length := by
  cases step with
  | rejected | known => exact absurd fresh (by simp [openCall])
  | added => exact ⟨_, (Table.get?_put ..).trans (if_pos rfl), rfl⟩
  | replaced => exact ⟨_, (Table.get?_put ..).trans (if_pos rfl), List.length_modify ..⟩

theorem Kept.step (kept : Kept f) (sound : Sound f) (step : Step f move g) : Kept g := by
  intro number u there running
  have unended : g.hasEnded number ≠ true := by simp [hasEnded, there, running]
  rcases step.task_parts there with ⟨t, events, old, advance, -⟩ | ⟨device, carried, rfl, rfl, rfl, -⟩
  · have before : t.hasEnded = false := by
      cases past : t.hasEnded with
      | false => rfl
      | true => exact absurd (advance.hasEnded past) (by simp [running])
    rw [advance.device_eq]
    rcases kept number t old before with owns | ⟨call, holds⟩
    · rcases owns.step sound step with still | taken | ended
      · exact .inl still
      · exact .inr ⟨_, taken⟩
      · exact absurd ended unended
    · exact .inr ⟨call, (holds.step step).resolve_right unended⟩
  · exact .inl (owns_created step there)

theorem Reached.kept (reached : Reached f) : Kept f := by
  refine reached.keeps ?_ fun reached kept => kept.step reached.sound
  intro settings buses number t there
  cases there

-- A task that was running when the run began, was held by a call then, and is both still.
def Outlives (f g : Fleet) (number : Nat) : Prop :=
  ∃ call, f.Holds call number ∧ g.Holds call number ∧ g.hasEnded number = false

theorem outlives_nothing (free : ∀ c ∈ f.calls, c.held = []) : ¬ Outlives f g number := by
  rintro ⟨call, ⟨c, there, member⟩, -⟩
  rw [free c (List.mem_of_getElem? there)] at member
  cases member

theorem withdrawn_held (owns : f.Owns name number) (withdraws : move.Withdraws name)
    (step : Step f move g) : g.Holds f.calls.length number := by
  obtain ⟨entry, found, rfl⟩ := owns
  cases step with
  | missing absent =>
    cases withdraws
    cases absent.symm.trans found
  | removed present =>
    cases withdraws
    cases present.symm.trans found
    exact holds_opened rfl List.mem_cons_self
  | stopped => exact holds_opened rfl (List.mem_map_of_mem (Table.get?_mem found))
  | _ => cases withdraws

theorem returned_holds_nothing (returned : (g.result? call).isSome = true) : ¬ g.Holds call number := by
  rintro ⟨c, there, member⟩
  rw [result?, there] at returned
  cases c with
  | returned result => exact List.not_mem_nil member
  | clearing | replacing | waiting => cases returned

def heard (f : Fleet) (name : Text) : List (List Delivery) := f.buses.map (·.heard name)

def Finished (f : Fleet) (name : Text) : Prop :=
  ∀ (number : Nat) (t : Task), f.tasks[number]? = some t → t.device.name = name → f.hasEnded number = true

theorem Finished.step (finished : Finished f name) (step : Step f move g) (spared : ¬ move.Adds name) :
    Finished g name := by
  intro number u there mine
  rcases step.task_parts there with ⟨t, events, old, advance, -⟩ | ⟨device, carried, rfl, rfl, rfl, -⟩
  · rw [advance.device_eq] at mine
    exact step.hasEnded (finished number t old mine)
  · exact absurd mine spared

theorem Finished.silent (finished : Finished f name) (step : Step f move g) : g.heard name = f.heard name := by
  cases step with
  | @moved number t move e there step =>
    refine Bus.heard_forwardAll fun d member => ?_
    rw [step.delivers_own d member]
    intro mine
    have ended := finished number t there mine
    rw [hasEnded, there] at ended
    exact absurd ended (by simp [step.unended])
  | _ => rfl

theorem Finished.run (finished : Finished f name) (spared : ∀ move ∈ moves, ¬ move.Adds name)
    (ran : f.run moves = some g) : Finished g name ∧ g.heard name = f.heard name := by
  have keeps : ∀ {middle : Fleet} {move h}, ¬ move.Adds name →
      Finished middle name ∧ middle.heard name = f.heard name → Step middle move h →
      Finished h name ∧ h.heard name = f.heard name := by
    intro middle move h spared held step
    exact ⟨held.1.step step spared, (held.1.silent step).trans held.2⟩
  exact run_keeps_within keeps spared ⟨finished, rfl⟩ ran

theorem old_of_unadded (ran : f.run moves = some g) (spared : ∀ move ∈ moves, ¬ move.Adds name)
    (there : g.tasks[number]? = some u) (mine : u.device.name = name) :
    ∃ t, f.tasks[number]? = some t ∧ t.device.name = name := by
  induction moves generalizing f with
  | nil => cases ran; exact ⟨u, there, mine⟩
  | cons move moves ih =>
    obtain ⟨middle, step, rest⟩ := run_cons ran
    obtain ⟨t, between, its⟩ := ih rest fun later member => spared later (List.mem_cons_of_mem _ member)
    rcases step.task_parts between with ⟨old, events, before, advance, -⟩ | ⟨device, carried, rfl, -, rfl, -⟩
    · exact ⟨old, before, advance.device_eq ▸ its⟩
    · exact absurd its (spared _ List.mem_cons_self)

theorem running_before (ran : f.run moves = some g) (there : f.tasks[number]? = some t)
    (running : g.hasEnded number = false) : t.hasEnded = false := by
  refine Bool.eq_false_iff.mpr fun past => ?_
  have ended : f.hasEnded number = true := by simp [hasEnded, there, past]
  rw [run_keeps (fun ended step => step.hasEnded ended) ended ran] at running
  cases running

theorem withdrawn_settled (reached : Reached f) (withdraws : move.Withdraws name)
    (ran : f.run (move :: later) = some g) (returned : (g.result? f.calls.length).isSome = true)
    (there : f.tasks[number]? = some t) (mine : t.device.name = name) :
    g.hasEnded number = true ∨ Outlives f g number := by
  obtain ⟨middle, step, rest⟩ := run_cons ran
  cases running : g.hasEnded number with
  | true => exact .inl rfl
  | false =>
    rw [← running]
    rcases reached.kept number t there (running_before ran there running) with owns | ⟨call, holds⟩
    · rw [mine] at owns
      have taken := withdrawn_held owns withdraws step
      exact .inl ((taken.run rest).resolve_left (returned_holds_nothing returned))
    · rcases holds.run ran with still | ended
      · exact .inr ⟨call, holds, still, running⟩
      · exact .inl ended

-- When a call that takes a device out of the registry has returned, every task of the device
-- that was there when it began has ended, except those that another call had taken before and
-- still waits for. If there are none of these, no bus hears of the device until it is added
-- again.
theorem withdrawal_final (reached : Reached f) (withdraws : move.Withdraws name)
    (ran : f.run (move :: later) = some g) (returned : (g.result? f.calls.length).isSome = true) :
    (∀ number t, f.tasks[number]? = some t → t.device.name = name →
      g.hasEnded number = true ∨ Outlives f g number) ∧
    ((∀ number t, f.tasks[number]? = some t → t.device.name = name → ¬ Outlives f g number) →
      ∀ more h, g.run more = some h → (∀ move ∈ later ++ more, ¬ move.Adds name) →
        h.heard name = g.heard name) := by
  refine ⟨fun number t there mine => withdrawn_settled reached withdraws ran returned there mine, ?_⟩
  intro none more h continued spared
  have unadded : ∀ other ∈ move :: later, ¬ other.Adds name := by
    intro other member adds
    rcases List.mem_cons.mp member with rfl | member
    · cases other <;> cases withdraws <;> cases adds
    · exact spared other (List.mem_append_left _ member) adds
  have finished : Finished g name := by
    intro number u there mine
    obtain ⟨t, before, its⟩ := old_of_unadded ran unadded there mine
    exact (withdrawn_settled reached withdraws ran returned before its).resolve_right (none number t before its)
  exact (finished.run (fun other member => spared other (List.mem_append_right _ member)) continued).2

def console : Bus := ⟨"console", fun _ => none, []⟩

def serving : List Move :=
  [.add (boilerAt "a"), .task 0 .begin, .task 0 .connected, .task 0 .subscribed, .task 0 .record,
    .notify 0 (.changes [⟨42, .bool true⟩]), .task 0 .look, .task 0 .read]

theorem withdrawal_final_forwarding :
    ∃ f g h, (idle unsecured [console]).run serving = some f ∧
      f.run [.remove "boiler", .cancelled 1 0, .task 0 (.forward 7), .task 0 .look, .task 0 .sessionClosed,
        .joined 1] = some g ∧
      g.hasEnded 0 = true ∧ g.run [.stop] = some h ∧ h.heard "boiler" = g.heard "boiler" := by
  obtain ⟨f, g, h, start, one, calls, ran, returned, more⟩ : ∃ f g h,
      (idle unsecured [console]).run serving = some f ∧
      (f.tasks[0]?).map Task.device = some (boilerAt "a") ∧ f.calls = [.waiting 0] ∧
      f.run [.remove "boiler", .cancelled 1 0, .task 0 (.forward 7), .task 0 .look, .task 0 .sessionClosed,
        .joined 1] = some g ∧ (g.result? 1).isSome = true ∧ g.run [.stop] = some h :=
    ⟨_, _, _, rfl, rfl, rfl, rfl, rfl, rfl⟩
  have free : ∀ number, ¬ Outlives f g number := fun _ => outlives_nothing (by simp [calls, Call.held])
  have withdraws : Move.Withdraws "boiler" (.remove "boiler") := rfl
  obtain ⟨settled, silent⟩ := withdrawal_final ⟨_, _, _, start⟩ withdraws ran (calls ▸ returned)
  obtain ⟨t, there, mine⟩ := Option.map_eq_some_iff.mp one
  have ended := (settled 0 t there (congrArg Device.name mine)).resolve_right (free 0)
  refine ⟨f, g, h, start, ran, ended, more, ?_⟩
  exact silent (fun number _ _ _ => free number) [.stop] h more (by simp [Move.Adds])

-- While a new configuration waits for the task of the old one, a removal finds the new task only.
-- It returns with the old one still at work, and the bus hears of the removed device once more.
theorem removal_overtaken :
    ∃ f g h, (idle unsecured [console]).run (serving ++ [.add (boilerAt "b")]) = some f ∧
      f.run [.remove "boiler", .cancelled 2 1, .task 1 .drop, .joined 2] = some g ∧
      g.result? f.calls.length = some (.ok ()) ∧
      (f.tasks[0]?).map Task.device = some (boilerAt "a") ∧ g.hasEnded 0 = false ∧
      g.run [.task 0 (.forward 7)] = some h ∧ g.heard "boiler" = [[]] ∧
      h.heard "boiler" = [[⟨"boiler", ⟨"burning", .bool, .bool true, 7⟩⟩]] :=
  ⟨_, _, _, rfl, rfl, rfl, rfl, rfl, rfl, rfl, rfl⟩

end Fleet
end FieldGateway.OpcUa
