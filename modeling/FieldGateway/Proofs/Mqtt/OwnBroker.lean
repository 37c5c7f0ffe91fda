import FieldGateway.Mqtt.OwnBroker

-- A broker runs only while somebody listens at its address. However often it is started and
-- closed, it does not begin to listen there twice, and once it ran it always starts again.
namespace FieldGateway.Mqtt.OwnBroker

structure Site where
  broker : OwnBroker
  listeners : Listeners

inductive Call where
  | start (listens : Bool)
  | close
  | taken (address : Network.Address)

namespace Site

def apply (s : Site) : Call → Site × Attempt Unit
  | .start listens =>
    let (broker, listeners, result) := s.broker.start s.listeners listens
    (⟨broker, listeners⟩, result)
  | .close => ({ s with broker := s.broker.close }, .ok ())
  | .taken address =>
    (if address ∈ s.listeners then s else { s with listeners := address :: s.listeners }, .ok ())

def run (s : Site) (calls : List Call) : Site := calls.foldl (fun s call => (s.apply call).1) s

def up (s : Site) : Site := { s with broker := { s.broker with running := true } }

inductive Started (s : Site) : Bool → Site → Attempt Unit → Prop where
  | running (runs : s.broker.running = true) : Started s listens s (.ok ())
  | found (stopped : s.broker.running = false) (taken : s.broker.address ∈ s.listeners) :
    Started s listens s.up (.ok ())
  | opened (stopped : s.broker.running = false) (free : s.broker.address ∉ s.listeners) :
    Started s true { s.up with listeners := s.broker.address :: s.listeners } (.ok ())
  | failed (stopped : s.broker.running = false) (free : s.broker.address ∉ s.listeners) :
    Started s false s (.error (Network.notListening s.broker.address.text startLimit))

variable {s t : Site} {call : Call} {calls : List Call} {listens : Bool} {result : Attempt Unit}

theorem start_started (s : Site) (listens : Bool) :
    Started s listens (s.apply (.start listens)).1 (s.apply (.start listens)).2 := by
  unfold apply start
  cases runs : s.broker.running with
  | true => exact .running runs
  | false =>
    by_cases taken : s.broker.address ∈ s.listeners
    · simp only [taken, Bool.false_eq_true, if_false, if_true]
      exact .found runs taken
    · cases listens with
      | true =>
        simp only [taken, Bool.false_eq_true, if_false, if_true]
        exact .opened runs taken
      | false =>
        simp only [taken, Bool.false_eq_true, if_false]
        exact .failed runs taken

structure Sound (s : Site) : Prop where
  heard : s.broker.running = true → s.broker.address ∈ s.listeners
  single : s.listeners.Nodup

theorem Sound.create {listeners : Listeners} (single : listeners.Nodup) (address : Network.Address) :
    Sound ⟨.create address, listeners⟩ := ⟨nofun, single⟩

structure Keeps (s t : Site) : Prop where
  address : t.broker.address = s.broker.address
  listeners : s.listeners <:+ t.listeners

theorem Keeps.refl (s : Site) : Keeps s s := ⟨rfl, List.suffix_rfl⟩

theorem Keeps.trans (first : Keeps r s) (second : Keeps s t) : Keeps r t :=
  ⟨second.address.trans first.address, first.listeners.trans second.listeners⟩

theorem Started.keeps (started : Started s listens t result) : Keeps s t := by
  cases started with
  | running | found | failed => exact ⟨rfl, List.suffix_rfl⟩
  | opened => exact ⟨rfl, List.suffix_cons _ _⟩

theorem Started.sound (started : Started s listens t result) (sound : Sound s) : Sound t := by
  cases started with
  | running | failed => exact sound
  | found _ taken => exact ⟨fun _ => taken, sound.single⟩
  | opened _ free => exact ⟨fun _ => List.mem_cons_self, List.nodup_cons.mpr ⟨free, sound.single⟩⟩

theorem apply_keeps (s : Site) (call : Call) : Keeps s (s.apply call).1 := by
  cases call with
  | start listens => exact (start_started s listens).keeps
  | close => exact ⟨rfl, List.suffix_rfl⟩
  | taken address =>
    change Keeps s (if address ∈ s.listeners then s else _)
    split
    · exact .refl s
    · exact ⟨rfl, List.suffix_cons _ _⟩

theorem Sound.apply (sound : Sound s) (call : Call) : Sound (s.apply call).1 := by
  cases call with
  | start listens => exact (start_started s listens).sound sound
  | close => exact ⟨nofun, sound.single⟩
  | taken address =>
    change Sound (if address ∈ s.listeners then s else _)
    split
    · exact sound
    · rename_i free
      exact ⟨fun runs => List.mem_cons_of_mem _ (sound.heard runs), List.nodup_cons.mpr ⟨free, sound.single⟩⟩

theorem run_keeps (s : Site) (calls : List Call) : Keeps s (s.run calls) := by
  induction calls generalizing s with
  | nil => exact .refl s
  | cons call calls ih => exact (apply_keeps s call).trans (ih _)

theorem Sound.run (sound : Sound s) (calls : List Call) : Sound (s.run calls) := by
  induction calls generalizing s with
  | nil => exact sound
  | cons call calls ih => exact ih (sound.apply call)

theorem Started.ok_iff (started : Started s listens t result) : result = .ok () ↔ t.broker.running = true := by
  cases started with
  | running runs => simp [runs]
  | found | opened => simp [up]
  | failed stopped => simp [stopped]

-- A broker that has run is not missed again: whatever is called meanwhile, its address stays
-- taken, and the next start finds somebody there.
theorem start_again (sound : Sound s) (ran : s.broker.running = true) (calls : List Call) (listens : Bool) :
    (s.run calls).apply (.start listens) = ((s.run calls).up, .ok ()) := by
  have kept := run_keeps s calls
  have taken : (s.run calls).broker.address ∈ (s.run calls).listeners :=
    kept.address ▸ kept.listeners.subset (sound.heard ran)
  unfold apply start
  cases runs : (s.run calls).broker.running with
  | true => simp [up, ← runs]
  | false => simp [taken, up]

end Site
end FieldGateway.Mqtt.OwnBroker
