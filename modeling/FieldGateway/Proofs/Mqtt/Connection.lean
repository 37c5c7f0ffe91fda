import FieldGateway.Mqtt.Connection
import Mathlib.Data.List.Infix

-- A connection that stands, over a whole run: what it does with what arrives, and in which order
-- the requests in its queue leave it.
namespace FieldGateway.Mqtt

def Event.message? : Event → Option Message
  | .published m => some m
  | _ => none

def messages (events : List Event) : List Message := events.filterMap Event.message?

def Activity.event? : Activity → Option Event
  | .event e => some e
  | _ => none

def arrivals (activities : List Activity) : List Event := activities.filterMap Activity.event?

namespace Connection

variable {c next back : Connection} {a : Activity} {activities later : List Activity}

theorem foldl_tryEnqueue (filters : List Subscription) (c : Connection) :
    filters.foldl (fun c s => c.tryEnqueue (.subscribe s)) c =
      { c with queue := c.queue ++ (filters.take (queueCapacity - c.queue.length)).map .subscribe } := by
  induction filters generalizing c with
  | nil => simp
  | cons s filters ih =>
    rw [List.foldl_cons, ih]
    by_cases room : c.queue.length < queueCapacity
    · obtain ⟨left, places⟩ : ∃ left, queueCapacity - c.queue.length = left + 1 :=
        ⟨queueCapacity - c.queue.length - 1, by omega⟩
      have fewer : queueCapacity - (c.queue.length + 1) = left := by omega
      simp [tryEnqueue, hasRoom, room, enqueue, places, fewer]
    · have full : queueCapacity - c.queue.length = 0 := by omega
      simp [tryEnqueue, hasRoom, room, full]

inductive Step (c : Connection) : Activity → Connection → Prop where
  | heard (listens : c.listening = true) :
      Step c (.event (.published m)) { c with delivered := c.delivered ++ [m] }
  | missed (deaf : c.listening = false) : Step c (.event (.published m)) c
  | forgotten :
      Step c (.event (.accepted false))
        { c with queue := c.queue ++ (c.subscriptions.take (queueCapacity - c.queue.length)).map .subscribe }
  | noticed (plain : e.message? = none) (known : e ≠ .accepted false) : Step c (.event e) c
  | queued (room : c.queue.length < queueCapacity) :
      Step c (.publish topic quality payload) (c.enqueue (.publish topic quality payload))
  | unqueued : Step c (.publish topic quality payload) c
  | farewell (room : c.queue.length < queueCapacity) : Step c .disconnect (c.enqueue .disconnect)
  | stuck : Step c .disconnect c
  | rested (empty : c.queue = []) : Step c .drain c
  | left (first : c.queue = .disconnect :: rest) :
      Step c .drain { c with queue := rest, sent := c.sent ++ [.disconnect], closed := true }
  | sent (first : c.queue = r :: rest) (onward : r ≠ .disconnect) :
      Step c .drain { c with queue := rest, sent := c.sent ++ [r.packet] }
  | deafened : Step c .stopListening { c with listening := false }
  | abandoned : Step c .abandon { c with closed := true }

theorem report_sound (c : Connection) (e : Event) : Step c (.event e) (c.report e) := by
  cases e with
  | published m =>
    cases listens : c.listening with
    | true => simpa [report, listens] using Step.heard (m := m) listens
    | false => simpa [report, listens] using Step.missed (m := m) listens
  | accepted present =>
    cases present with
    | true => exact .noticed rfl nofun
    | false =>
      have restored : c.report (.accepted false) = _ := foldl_tryEnqueue c.subscriptions c
      rw [restored]
      exact .forgotten
  | acknowledged codes | other | lost | silence => exact .noticed rfl nofun

theorem apply_sound (stands : c.closed = false) (a : Activity) : Step c a (c.apply a) := by
  cases a with
  | event e => simpa [apply, stands] using report_sound c e
  | drain =>
    cases queue : c.queue with
    | nil => simpa [apply, stands, drain, queue] using Step.rested queue
    | cons r rest =>
      cases r with
      | disconnect => simpa [apply, stands, drain, queue] using Step.left queue
      | subscribe s => simpa [apply, stands, drain, queue] using Step.sent queue nofun
      | publish topic quality payload => simpa [apply, stands, drain, queue] using Step.sent queue nofun
  | publish topic quality payload =>
    by_cases wild : hasWildcard topic = true
    · simpa [apply, stands, publish, publishOutcome, wild] using Step.unqueued
    · by_cases room : c.queue.length < queueCapacity
      · simpa [apply, stands, publish, publishOutcome, wild, hasRoom, room] using Step.queued room
      · simpa [apply, stands, publish, publishOutcome, wild, hasRoom, room] using Step.unqueued
  | disconnect =>
    by_cases room : c.queue.length < queueCapacity
    · simpa [apply, stands, tryEnqueue, hasRoom, room] using Step.farewell room
    · simpa [apply, stands, tryEnqueue, hasRoom, room] using Step.stuck
  | stopListening => simpa [apply, stands] using Step.deafened (c := c)
  | abandon => simpa [apply, stands] using Step.abandoned

theorem apply_closed (closed : c.closed = true) (a : Activity) : c.apply a = c := by
  simp [apply, closed]

theorem run_append (c : Connection) (earlier later : List Activity) :
    c.run (earlier ++ later) = (c.run earlier).run later := List.foldl_append ..

theorem run_keeps (kept : Connection → Prop) (step : ∀ c next a, Step c a next → kept c → kept next)
    (start : kept c) (activities : List Activity) : kept (c.run activities) := by
  induction activities generalizing c with
  | nil => exact start
  | cons a activities ih =>
    apply ih
    cases closed : c.closed with
    | true =>
      rw [apply_closed closed]
      exact start
    | false => exact step c _ a (apply_sound closed a) start

theorem Step.queue_le (step : Step c a next) (bounded : c.queue.length ≤ queueCapacity) :
    next.queue.length ≤ queueCapacity := by
  cases step with
  | heard | missed | noticed | unqueued | stuck | rested | deafened | abandoned => exact bounded
  | forgotten =>
    simp only [List.length_append, List.length_map, List.length_take]
    omega
  | queued room | farewell room =>
    simp only [enqueue, List.length_append, List.length_singleton]
    omega
  | left first | sent first =>
    rw [first, List.length_cons] at bounded
    exact Nat.le_of_succ_le bounded

theorem Step.subscriptions_eq (step : Step c a next) : next.subscriptions = c.subscriptions := by
  cases step <;> rfl

theorem Step.sent_extends (step : Step c a next) : c.sent <+: next.sent := by
  cases step with
  | left | sent => exact List.prefix_append _ _
  | heard | missed | forgotten | noticed | queued | unqueued | farewell | stuck | rested | deafened | abandoned =>
    exact List.prefix_rfl

theorem run_queue_le (bounded : c.queue.length ≤ queueCapacity) (activities : List Activity) :
    (c.run activities).queue.length ≤ queueCapacity :=
  run_keeps (fun next => next.queue.length ≤ queueCapacity) (fun _ _ _ step => step.queue_le) bounded activities

theorem run_subscriptions (c : Connection) (activities : List Activity) :
    (c.run activities).subscriptions = c.subscriptions :=
  run_keeps (fun next => next.subscriptions = c.subscriptions)
    (fun _ _ _ step same => step.subscriptions_eq.trans same) rfl activities

theorem run_sent_extends (c : Connection) (activities : List Activity) : c.sent <+: (c.run activities).sent :=
  run_keeps (fun next => c.sent <+: next.sent) (fun _ _ _ step sent => sent.trans step.sent_extends)
    List.prefix_rfl activities

theorem run_closed (closed : c.closed = true) (activities : List Activity) : c.run activities = c := by
  induction activities with
  | nil => rfl
  | cons a activities ih =>
    have first : c.run (a :: activities) = (c.apply a).run activities := rfl
    rw [first, apply_closed closed, ih]

-- The requests that wait in front leave the queue in their order, one with every request that
-- the task takes out, and what is asked for meanwhile stands behind them.
theorem run_sends {front behind : List Request} (queue : c.queue = front ++ behind)
    (stands : (c.run activities).closed = false) (drained : front.length ≤ activities.count .drain) :
    c.sent ++ front.map Request.packet <+: (c.run activities).sent := by
  induction activities generalizing c front behind with
  | nil =>
    have none : front = [] := List.length_eq_zero_iff.mp (Nat.le_zero.mp drained)
    simp [none, run]
  | cons a activities ih =>
    have first : c.run (a :: activities) = (c.apply a).run activities := rfl
    rw [first] at stands ⊢
    cases closed : c.closed with
    | true =>
      rw [apply_closed closed, run_closed closed] at stands
      rw [closed] at stands
      cases stands
    | false =>
      have step := apply_sound closed a
      generalize c.apply a = next at step stands ⊢
      have waits : ∀ more, a ≠ .drain → next.queue = c.queue ++ more → next.sent = c.sent →
          c.sent ++ front.map Request.packet <+: (next.run activities).sent := by
        intro more other longer same
        have taken : front.length ≤ activities.count .drain := by
          rwa [List.count_cons_of_ne other] at drained
        have row : next.queue = front ++ (behind ++ more) := by rw [longer, queue, List.append_assoc]
        rw [← same]
        exact ih row stands taken
      cases front with
      | nil => simpa using step.sent_extends.trans (run_sent_extends next activities)
      | cons r front =>
        rw [List.cons_append] at queue
        cases step with
        | heard | missed | noticed | unqueued | stuck | deafened | abandoned =>
          exact waits [] nofun (List.append_nil _).symm rfl
        | forgotten | queued | farewell => exact waits _ nofun rfl rfl
        | rested empty => simp [empty] at queue
        | left taken =>
          rw [run_closed rfl] at stands
          cases stands
        | sent taken onward =>
          obtain ⟨rfl, rfl⟩ := List.cons.inj (taken.symm.trans queue)
          have fewer : front.length ≤ activities.count .drain := by simpa using drained
          have rest := ih rfl stands fewer
          simpa using rest

theorem report_closed (c : Connection) (e : Event) : (c.report e).closed = c.closed := by
  have step := report_sound c e
  generalize c.report e = next at step
  cases step <;> rfl

theorem foldl_report (stands : c.closed = false) (events : List Event) :
    events.foldl report c = c.run (events.map .event) := by
  induction events generalizing c with
  | nil => rfl
  | cons e events ih =>
    have first : c.run ((e :: events).map .event) = (c.apply (.event e)).run (events.map .event) := rfl
    rw [List.foldl_cons, first, apply, stands]
    apply ih
    rw [report_closed, stands]

def opened (filters : List Subscription) (listening : Bool) (sent : List Packet) : Connection :=
  ⟨filters, listening, [], sent, [], false⟩

variable {filters : List Subscription} {listening : Bool} {shaken : Shaken}

theorem ofShaken_run (filters : List Subscription) (listening : Bool) (shaken : Shaken) (activities : List Activity) :
    (ofShaken filters listening shaken).run activities =
      (opened filters listening shaken.sent).run (shaken.unread.map .event ++ activities) := by
  rw [run_append, ← foldl_report rfl]
  rfl

-- After a loss of the connection the filters are asked for again behind what waits, as far as the
-- queue has room. All of them are exactly when it has room for all, and what is asked for is sent
-- as soon as the task has taken out as many requests as wait then.
theorem filters_restored (start : c = (ofShaken filters listening shaken).run activities)
    (stands : c.closed = false) (again : back = c.apply (.event (.accepted false))) :
    back.queue = c.queue ++ (filters.take (queueCapacity - c.queue.length)).map .subscribe ∧
    (back.queue = c.queue ++ filters.map .subscribe ↔ c.queue.length + filters.length ≤ queueCapacity) ∧
    ∀ later, (back.run later).closed = false → back.queue.length ≤ later.count .drain →
      c.sent ++ back.queue.map Request.packet <+: (back.run later).sent := by
  rw [ofShaken_run] at start
  have same : c.subscriptions = filters := by
    rw [start]
    exact run_subscriptions _ _
  have bounded : c.queue.length ≤ queueCapacity := by
    rw [start]
    exact run_queue_le (Nat.zero_le _) _
  have step := apply_sound stands (.event (.accepted false))
  rw [← again] at step
  cases step with
  | noticed plain known => exact absurd rfl known
  | forgotten =>
    rw [same]
    refine ⟨rfl, ?_, fun later still drained => run_sends (List.append_nil _).symm still drained⟩
    simp only [List.append_cancel_left_eq]
    constructor
    · intro whole
      have length := congrArg List.length whole
      simp only [List.length_map, List.length_take] at length
      omega
    · intro room
      rw [List.take_of_length_le (by omega)]

def plant : Subscription := ⟨"plant/#", .atLeastOnce⟩

def command : Activity := .publish "plant/boiler/commands" .atLeastOnce "on"

def interrupted : Connection :=
  (ofShaken [plant] true ⟨[.connect ⟨none, standardKeepAlive, none⟩, .subscribe plant], []⟩).apply (.event .lost)

theorem filters_restored_commands :
    (interrupted.run [command, command]).closed = false ∧
    ((interrupted.run [command, command]).apply (.event (.accepted false))).queue =
      (interrupted.run [command, command]).queue ++ [.subscribe plant] ∧
    interrupted.sent ++ ((interrupted.run [command, command]).queue.map Request.packet ++ [.subscribe plant]) <+:
      (((interrupted.run [command, command]).apply (.event (.accepted false))).run
        [.drain, command, .drain, .drain]).sent := by
  have stands : (interrupted.run [command, command]).closed = false := rfl
  have start : interrupted.run [command, command] = (ofShaken [plant] true
      ⟨[.connect ⟨none, standardKeepAlive, none⟩, .subscribe plant], []⟩).run [.event .lost, command, command] := rfl
  obtain ⟨restored, -, sends⟩ := filters_restored start stands rfl
  have sent := sends [.drain, command, .drain, .drain] rfl (by decide)
  refine ⟨stands, restored, ?_⟩
  rwa [restored, List.map_append] at sent

-- As many commands as the queue holds keep the filter out of it. Everything that waits is sent
-- then, and the connection stands without the filter.
theorem filter_forgotten :
    connect ⟨[]⟩ (.ofHost "localhost") [plant] (fun _ => [.accepted false, .acknowledged [1]]) =
      .ok ⟨[.connect ⟨none, standardKeepAlive, none⟩, .subscribe plant], []⟩ ∧
    .subscribe plant ∉
      ((interrupted.run (List.replicate queueCapacity command)).apply (.event (.accepted false))).queue ∧
    ((interrupted.run (List.replicate queueCapacity command)).apply (.event (.accepted false))).run
        (List.replicate queueCapacity .drain) =
      opened [plant] true (interrupted.sent ++
        List.replicate queueCapacity (.publish "plant/boiler/commands" .atLeastOnce "on")) := by
  refine ⟨rfl, ?_, ?_⟩
  · decide +kernel
  · decide +kernel

end Connection
end FieldGateway.Mqtt
