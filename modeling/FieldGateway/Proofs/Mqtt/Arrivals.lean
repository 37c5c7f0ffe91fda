import FieldGateway.Proofs.Mqtt.Connection
import FieldGateway.Proofs.Mqtt.Handshake

-- Which messages reach their reader: all that arrive once the connection stands, in their order,
-- and none that arrived while the client still waited for an acknowledgement.
namespace FieldGateway.Mqtt

theorem messages_append (before behind : List Event) : messages (before ++ behind) = messages before ++ messages behind :=
  List.filterMap_append

theorem arrivals_append (before behind : List Activity) :
    arrivals (before ++ behind) = arrivals before ++ arrivals behind := List.filterMap_append

theorem arrivals_events (events : List Event) : arrivals (events.map .event) = events := by
  induction events with
  | nil => rfl
  | cons e events ih =>
    rw [List.map_cons, arrivals, List.filterMap_cons]
    exact congrArg (e :: ·) ih

namespace Connection

variable {c next : Connection} {a : Activity} {activities : List Activity}

def Hears (c : Connection) : Prop := c.closed = false ∧ c.listening = true

instance (c : Connection) : Decidable c.Hears := inferInstanceAs (Decidable (_ ∧ _))

theorem Step.delivered_eq (step : Step c a next) (listens : c.listening = true) :
    next.delivered = c.delivered ++ messages (arrivals [a]) := by
  cases step with
  | heard => rfl
  | missed deaf =>
    rw [deaf] at listens
    cases listens
  | noticed plain => simp [arrivals, messages, Activity.event?, plain]
  | forgotten | queued | unqueued | farewell | stuck | rested | left | sent | deafened | abandoned =>
    exact (List.append_nil _).symm

theorem Step.unheard (step : Step c a next) (deaf : c.listening = false) :
    next.listening = false ∧ next.delivered = c.delivered := by
  cases step with
  | heard listens =>
    rw [deaf] at listens
    cases listens
  | missed | forgotten | noticed | queued | unqueued | farewell | stuck | rested | left | sent | abandoned =>
    exact ⟨deaf, rfl⟩
  | deafened => exact ⟨rfl, rfl⟩

theorem run_unheard (deaf : ¬ c.Hears) (activities : List Activity) :
    ¬ (c.run activities).Hears ∧ (c.run activities).delivered = c.delivered := by
  induction activities generalizing c with
  | nil => exact ⟨deaf, rfl⟩
  | cons a activities ih =>
    have first : c.run (a :: activities) = (c.apply a).run activities := rfl
    rw [first]
    cases closed : c.closed with
    | true =>
      rw [apply_closed closed]
      exact ih deaf
    | false =>
      have silent : c.listening = false := by
        cases listens : c.listening with
        | true => exact absurd ⟨closed, listens⟩ deaf
        | false => rfl
      obtain ⟨still, same⟩ := (apply_sound closed a).unheard silent
      have later : ¬ (c.apply a).Hears := by
        intro hears
        rw [hears.2] at still
        cases still
      rw [← same]
      exact ih later

theorem run_delivers (c : Connection) (activities : List Activity) :
    (c.run activities).delivered <+: c.delivered ++ messages (arrivals activities) ∧
    ((c.run activities).Hears → (c.run activities).delivered = c.delivered ++ messages (arrivals activities)) := by
  induction activities generalizing c with
  | nil => simp [run, arrivals, messages]
  | cons a activities ih =>
    by_cases hears : c.Hears
    · have first : c.run (a :: activities) = (c.apply a).run activities := rfl
      have step := (apply_sound hears.1 a).delivered_eq hears.2
      have split : arrivals (a :: activities) = arrivals [a] ++ arrivals activities :=
        arrivals_append [a] activities
      rw [first, split, messages_append, ← List.append_assoc, ← step]
      exact ih (c.apply a)
    · obtain ⟨still, same⟩ := run_unheard hears (a :: activities)
      rw [same]
      exact ⟨List.prefix_append _ _, fun hears => absurd hears still⟩

variable {disk : Disk} {s : BrokerSettings} {network : Network} {filters : List Subscription} {shaken : Shaken}

-- Of all that has come since the client asked for its first filter, the messages before the last
-- acknowledgement are lost. Every other one is delivered once and in its order, as long as the
-- connection is not closed and its reader does not go away.
theorem arrivals_delivered (connected : connect disk s filters network = .ok shaken) :
    ∃ attempt ≤ s.retries, ∃ greeting present shaking,
      network attempt = greeting ++ .accepted present :: (shaking ++ shaken.unread) ∧
      (∀ e ∈ greeting, isAccepted e = false) ∧ Acknowledges filters.length shaking ∧
      ∀ activities,
        messages shaking ++ ((ofShaken filters true shaken).run activities).delivered <+:
          messages (shaking ++ shaken.unread ++ arrivals activities) ∧
        (((ofShaken filters true shaken).run activities).Hears →
          messages shaking ++ ((ofShaken filters true shaken).run activities).delivered =
            messages (shaking ++ shaken.unread ++ arrivals activities) ∧
          (((ofShaken filters true shaken).run activities).delivered =
            messages (shaking ++ shaken.unread ++ arrivals activities) ↔ messages shaking = [])) := by
  obtain ⟨attempt, bound, made⟩ := connect_parts connected
  obtain ⟨-, greeting, present, shaking, -, split, unaccepted, acknowledges, -⟩ := handshake_parts made
  refine ⟨attempt, bound, greeting, present, shaking, split, fun e member => (unaccepted e member).1, acknowledges, ?_⟩
  intro activities
  obtain ⟨part, whole⟩ := run_delivers (opened filters true shaken.sent) (shaken.unread.map .event ++ activities)
  rw [← ofShaken_run, arrivals_append, arrivals_events] at part whole
  have nothing : (opened filters true shaken.sent).delivered = [] := rfl
  rw [nothing, List.nil_append] at part whole
  rw [List.append_assoc, messages_append]
  constructor
  · rw [List.prefix_append_right_inj]
    exact part
  · intro hears
    rw [whole hears]
    exact ⟨rfl, List.self_eq_append_left⟩

def early : Message := ⟨"plant/boiler", [49]⟩
def timely : Message := ⟨"plant/boiler", [50]⟩

def eager : Network := fun _ => [.accepted false, .published early, .acknowledged [1], .published timely]

def shakenByEager : Shaken := ⟨[.connect ⟨none, standardKeepAlive, none⟩, .subscribe plant], [.published timely]⟩

theorem arrivals_delivered_timely :
    connect ⟨[]⟩ (.ofHost "localhost") [plant] eager = .ok shakenByEager ∧
    ((ofShaken [plant] true shakenByEager).run [.event .lost, .event (.published early)]).Hears ∧
    ∃ greeting present shaking, eager 0 = greeting ++ .accepted present :: (shaking ++ shakenByEager.unread) ∧
      Acknowledges 1 shaking ∧
      messages shaking ++
          ((ofShaken [plant] true shakenByEager).run [.event .lost, .event (.published early)]).delivered =
        messages (shaking ++ [.published timely] ++ [.lost, .published early]) := by
  have connected : connect ⟨[]⟩ (.ofHost "localhost") [plant] eager = .ok shakenByEager := rfl
  have hears : ((ofShaken [plant] true shakenByEager).run [.event .lost, .event (.published early)]).Hears := by
    decide
  obtain ⟨attempt, -, greeting, present, shaking, split, -, acknowledges, all⟩ := arrivals_delivered connected
  exact ⟨connected, hears, greeting, present, shaking, split, acknowledges, ((all _).2 hears).1⟩

-- The early message is lost, although it came after the client had asked for the filter.
theorem early_message_lost :
    connect ⟨[]⟩ (.ofHost "localhost") [plant] eager = .ok shakenByEager ∧
    (ofShaken [plant] true shakenByEager).Hears ∧
    (ofShaken [plant] true shakenByEager).delivered = [timely] ∧
    messages (eager 0) = [early, timely] := by
  exact ⟨rfl, by decide, rfl, rfl⟩

end Connection
end FieldGateway.Mqtt
