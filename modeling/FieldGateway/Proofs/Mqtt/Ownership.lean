import FieldGateway.Mqtt.Publisher
import FieldGateway.Proofs.Mqtt.Ledger

-- The connections of a driver and of a bus over all their calls, and the broker that a bus owns.
namespace FieldGateway.Mqtt

open Books (Kept Accounted Started Stopped)

variable {disk : Disk} {network : Network} {fault : Fault} {properties : Json.Fields} {buses : List Bus}
  {address : Text}

namespace Subscriber

variable {s t : Subscriber}

inductive Call where
  | start (disk : Disk) (network : Network)
  | stop
  | act (action : Action)
  | command (command : Command)

def call (s : Subscriber) : Call → Subscriber
  | .start disk network => (s.start disk network).1
  | .stop => s.stop
  | .act action => s.apply action
  | .command c => (s.runCommand c).1

def afterCalls (s : Subscriber) (calls : List Call) : Subscriber := calls.foldl call s

def books (s : Subscriber) : Books := ⟨s.running.map Link.number, s.opened, s.history⟩

def Faithful (s : Subscriber) : Prop := s.books.Kept ∧ ∀ n, ¬ Overtaken s.history n

theorem ofProperties_faithful (made : ofProperties properties buses = .ok s) : s.Faithful := by
  unfold ofProperties at made
  repeat' split at made
  all_goals cases made
  exact ⟨.fresh, by simp [Overtaken]⟩

theorem start_error (failed : (s.start disk network).2 = .error fault) : (s.start disk network).1 = s := by
  revert failed
  unfold start
  split
  · exact nofun
  · split
    · exact fun _ => rfl
    · exact nofun

theorem start_started (s : Subscriber) (disk : Disk) (network : Network) :
    s.start disk network = (s, .ok ()) ∨
      s.books.known = none ∧ Started s.books (s.start disk network).2 (s.start disk network).1.books := by
  unfold start
  split
  · exact .inl rfl
  · rename_i idle
    refine .inr ⟨by simp [books, idle], ?_⟩
    split
    · exact .failure s.books _
    · exact .connection s.books

theorem stop_stopped (s : Subscriber) : Stopped s.books s.stop.books := by
  unfold stop
  split
  · rename_i idle
    have none : s.books.known = none := by simp [books, idle]
    exact .nothing none
  · rename_i link running
    have known : s.books.known = some link.number := by simp [books, running]
    exact .closure known

theorem start_faithful (faithful : s.Faithful) (disk : Disk) (network : Network) : (s.start disk network).1.Faithful := by
  obtain ⟨kept, clean⟩ := faithful
  rcases s.start_started disk network with same | ⟨idle, started⟩
  · rw [same]
    exact ⟨kept, clean⟩
  · refine ⟨started.kept kept, ?_⟩
    intro n overtaken
    rcases (started.overtaken_iff kept n).mp overtaken with earlier | ⟨-, known⟩
    · exact clean n earlier
    · cases idle.symm.trans known

theorem stop_faithful (faithful : s.Faithful) : s.stop.Faithful := by
  obtain ⟨kept, clean⟩ := faithful
  refine ⟨s.stop_stopped.kept kept, ?_⟩
  intro n overtaken
  exact clean n ((s.stop_stopped.overtaken_iff n).mp overtaken)

theorem apply_books (s : Subscriber) (action : Action) : (s.apply action).books = s.books := by
  cases action with
  | add device =>
    simp only [apply, addDevice]
    repeat' split
    all_goals rfl
  | remove name => rfl
  | message stamp m => rfl

theorem runCommand_books (s : Subscriber) (c : Command) : (s.runCommand c).1.books = s.books := by
  unfold runCommand
  cases Table.get? c.device s.devices with
  | none => rfl
  | some device =>
    cases s.commandTopic c.device with
    | error fault => rfl
    | ok topic =>
      cases running : s.running with
      | none => rfl
      | some link =>
        simp only
        split
        · rfl
        · simp [books, running]

theorem Faithful.of_books (faithful : s.Faithful) (same : t.books = s.books) : t.Faithful := by
  have history : t.history = s.history := congrArg Books.history same
  unfold Faithful
  rw [same, history]
  exact faithful

theorem call_faithful (faithful : s.Faithful) (c : Call) : (s.call c).Faithful := by
  cases c with
  | start disk network => exact start_faithful faithful disk network
  | stop => exact stop_faithful faithful
  | act action => exact faithful.of_books (s.apply_books action)
  | command c => exact faithful.of_books (s.runCommand_books c)

theorem after_faithful (faithful : s.Faithful) (calls : List Call) : (s.afterCalls calls).Faithful := by
  induction calls generalizing s with
  | nil => exact faithful
  | cons c calls ih => exact ih (call_faithful faithful c)

structure Tidy (s : Subscriber) : Prop where
  accounted : s.books.Accounted
  single : ∀ n, ¬ Overtaken s.history n
  alone : ∀ before, before <+: s.history → ∀ m n, Open before m → Open before n → m = n
  stopped : ∀ n, ¬ Open s.stop.history n
  failed : ∀ disk network fault, (s.start disk network).2 = .error fault → (s.start disk network).1 = s

theorem Faithful.tidy (faithful : s.Faithful) : s.Tidy := by
  obtain ⟨kept, clean⟩ := faithful
  refine ⟨kept.accounted, clean, ?_, ?_, fun disk network fault => start_error⟩
  · intro before prior m n first second
    rcases kept.accounted.alone before prior m n first second with same | overtaken | overtaken
    · exact same
    · exact absurd (overtaken.mono prior) (clean m)
    · exact absurd (overtaken.mono prior) (clean n)
  · intro n stands
    exact clean n ((s.stop_stopped.open_iff kept n).mp stands)

end Subscriber

namespace Publisher

variable {p : Publisher} {brokerStart : Attempt Unit} {calls : List Call}

inductive Call where
  | start (brokerStart : Attempt Unit) (network : Network)
  | stop
  | receive (delivery : Delivery)

def call (p : Publisher) : Call → Publisher
  | .start brokerStart network => (p.start brokerStart network).1
  | .stop => p.stop
  | .receive d => p.receive d

def afterCalls (p : Publisher) (calls : List Call) : Publisher := calls.foldl call p

def books (p : Publisher) : Books := ⟨p.running.map Link.number, p.opened, p.history⟩

theorem ofSettings_books {settings : PublisherSettings} {host : Text} {owns : Bool}
    (made : ofSettings settings host owns = .ok p) : p.books = ⟨none, 0, []⟩ := by
  unfold ofSettings at made
  split at made
  · cases made
  · cases made
    rfl

theorem created_books (made : ofProperties properties = .ok p ∨ withBroker properties address = .ok p) :
    p.books = ⟨none, 0, []⟩ := by
  rcases made with made | made
  · unfold ofProperties at made
    repeat' split at made
    all_goals first | cases made | exact ofSettings_books made
  · unfold withBroker at made
    split at made
    · cases made
    · exact ofSettings_books made

def closing (p : Publisher) : List LinkEvent := if p.ownsBroker then [.brokerClosed] else []

theorem closing_ofBroker (p : Publisher) : ∀ event ∈ p.closing, event.ofBroker = true := by
  unfold closing
  split <;> simp [LinkEvent.ofBroker]

theorem closeBroker_books (p : Publisher) :
    p.closeBroker.books = { p.books with history := p.history ++ p.closing } := by
  unfold closeBroker closing
  split
  · rfl
  · simp [books]

theorem connect_started (p : Publisher) (network : Network) :
    Started p.books (p.connect network).2 (p.connect network).1.books := by
  unfold connect
  split
  · simp only [closeBroker_books]
    exact .failed _ p.closing_ofBroker
  · exact .connection p.books

theorem start_started (p : Publisher) (brokerStart : Attempt Unit) (network : Network) :
    Started p.books (p.start brokerStart network).2 (p.start brokerStart network).1.books := by
  unfold start
  split
  · have started := (p.record .brokerStarted).connect_started network
    cases brokerStart with
    | error fault => exact .failed fault (by simp [LinkEvent.ofBroker])
    | ok done => exact started.behind rfl
  · exact connect_started p network

theorem stop_stopped (p : Publisher) : Stopped p.books p.stop.books := by
  unfold stop
  cases running : p.running with
  | none =>
    have idle : p.books.known = none := by simp [books, running]
    simp only [closeBroker_books]
    exact .idle idle p.closing_ofBroker
  | some link =>
    have known : p.books.known = some link.number := by simp [books, running]
    simp only [closeBroker_books]
    exact .closed known p.closing_ofBroker

theorem receive_books (p : Publisher) (d : Delivery) : (p.receive d).books = p.books := by
  unfold receive
  split
  · rfl
  · rename_i link running
    simp only
    split
    · rfl
    · simp [books, running]

theorem call_kept (kept : p.books.Kept) (c : Call) : (p.call c).books.Kept := by
  cases c with
  | start brokerStart network => exact (p.start_started brokerStart network).kept kept
  | stop => exact p.stop_stopped.kept kept
  | receive d =>
    rw [call, receive_books]
    exact kept

theorem after_kept (kept : p.books.Kept) (calls : List Call) : (p.afterCalls calls).books.Kept := by
  induction calls generalizing p with
  | nil => exact kept
  | cons c calls ih => exact ih (call_kept kept c)

def Connects (p : Publisher) : Call → Prop
  | .start brokerStart network => (p.start brokerStart network).2 = .ok ()
  | .stop | .receive _ => False

theorem call_overtaken_iff (kept : p.books.Kept) (c : Call) (n : Nat) :
    Overtaken (p.call c).history n ↔ Overtaken p.history n ∨ p.Connects c ∧ p.books.known = some n := by
  cases c with
  | start brokerStart network => exact (p.start_started brokerStart network).overtaken_iff kept n
  | stop =>
    have same : Overtaken p.stop.history n ↔ Overtaken p.history n := p.stop_stopped.overtaken_iff n
    simpa [Connects, call] using same
  | receive d =>
    have same : (p.receive d).history = p.history := congrArg Books.history (p.receive_books d)
    simp [Connects, call, same]

-- By induction from the last call back. No connection has been overtaken exactly when none was
-- opened while the bus had one.
theorem none_overtaken_iff (kept : p.books.Kept) (clean : ∀ n, ¬ Overtaken p.history n) (calls : List Call) :
    (∀ n, ¬ Overtaken (p.afterCalls calls).history n) ↔
      ∀ before c, before ++ [c] <+: calls → (p.afterCalls before).Connects c → (p.afterCalls before).running = none := by
  induction calls using List.reverseRecOn with
  | nil => simpa [afterCalls] using clean
  | append_singleton calls last ih =>
    have step : p.afterCalls (calls ++ [last]) = (p.afterCalls calls).call last := by simp [afterCalls]
    rw [step]
    simp only [call_overtaken_iff (after_kept kept calls)]
    constructor
    · intro still before c prior connects
      rcases List.prefix_concat_iff.mp prior with whole | earlier
      · obtain ⟨rfl, same⟩ := List.append_inj' whole rfl
        cases same
        cases running : (p.afterCalls before).running with
        | none => rfl
        | some link => exact absurd (.inr ⟨connects, by simp [books, running]⟩) (still link.number)
      · exact ih.mp (fun n overtaken => still n (.inl overtaken)) before c earlier connects
    · rintro alone n (overtaken | ⟨connects, known⟩)
      · exact ih.mpr (fun before c prior => alone before c (prior.trans (List.prefix_append _ _))) n overtaken
      · have idle := alone calls last List.prefix_rfl connects
        simp [books, idle] at known

theorem stop_closes (owns : p.ownsBroker = true) : p.stop.history.getLast? = some .brokerClosed := by
  unfold stop
  cases p.running with
  | none => simp [closeBroker, record, owns]
  | some link => simp [closeBroker, record, owns]

theorem start_closes (owns : p.ownsBroker = true) (failed : (p.start (.ok ()) network).2 = .error fault) :
    (p.start (.ok ()) network).1.history.getLast? = some .brokerClosed := by
  revert failed
  simp only [start, connect, owns, if_true]
  split
  · simp [closeBroker, record, owns]
  · exact nofun

structure Tidy (p : Publisher) : Prop where
  accounted : p.books.Accounted
  overtakes : ∀ c n, Overtaken (p.call c).history n ↔
    Overtaken p.history n ∨ p.Connects c ∧ p.books.known = some n
  stopped : ∀ n, Open p.stop.history n ↔ Overtaken p.history n
  failed : ∀ brokerStart network fault, (p.start brokerStart network).2 = .error fault →
    (p.start brokerStart network).1.books.known = p.books.known ∧
    (p.start brokerStart network).1.opened = p.opened ∧
    ∀ n, Open (p.start brokerStart network).1.history n ↔ Open p.history n
  broker : p.ownsBroker = true → p.stop.history.getLast? = some .brokerClosed ∧
    ∀ network fault, (p.start (.ok ()) network).2 = .error fault →
      (p.start (.ok ()) network).1.history.getLast? = some .brokerClosed

theorem tidy_of_kept (kept : p.books.Kept) : p.Tidy := by
  refine ⟨kept.accounted, call_overtaken_iff kept, p.stop_stopped.open_iff kept, ?_, ?_⟩
  · intro brokerStart network fault failed
    have started := p.start_started brokerStart network
    rw [failed] at started
    exact started.of_error
  · intro owns
    exact ⟨stop_closes owns, fun network fault => start_closes owns⟩

end Publisher

-- A driver opens a connection only when it has none, and closes it. A bus forgets the connection
-- that it has when it starts again, and this is the only one that it ever leaves open.
theorem links_accounted {s : Subscriber} {p : Publisher} {given : Json.Fields}
    (driver : Subscriber.ofProperties properties buses = .ok s)
    (bus : Publisher.ofProperties given = .ok p ∨ Publisher.withBroker given address = .ok p)
    (calls : List Subscriber.Call) (busCalls : List Publisher.Call) :
    (s.afterCalls calls).Tidy ∧ (p.afterCalls busCalls).Tidy ∧
      ((∀ n, ¬ Overtaken (p.afterCalls busCalls).history n) ↔
        ∀ before c, before ++ [c] <+: busCalls → (p.afterCalls before).Connects c →
          (p.afterCalls before).running = none) := by
  have created := Publisher.created_books bus
  have kept : p.books.Kept := created ▸ Ledger.fresh
  have empty : p.history = [] := congrArg Books.history created
  have clean : ∀ n, ¬ Overtaken p.history n := by simp [empty, Overtaken]
  refine ⟨?_, Publisher.tidy_of_kept (Publisher.after_kept kept busCalls), Publisher.none_overtaken_iff kept clean busCalls⟩
  exact (Subscriber.after_faithful (Subscriber.ofProperties_faithful driver) calls).tidy

def hosted : Json.Fields := [("host", .text "localhost")]
def subscribed : Json.Fields := [("host", .text "localhost"), ("subTopic", .text "plant/#"), ("pubTopic", .text "plant/+")]

def welcoming : Network := fun _ => [.accepted false, .acknowledged [0]]

theorem links_accounted_interrupted :
    ∃ s p, Subscriber.ofProperties subscribed [] = .ok s ∧ Publisher.withBroker [] "localhost:1" = .ok p ∧
      (s.afterCalls [.start ⟨[]⟩ welcoming, .start ⟨[]⟩ welcoming, .stop]).history.count (.closed 0) = 1 ∧
      (p.start (.ok ()) fun _ => []).1.history.getLast? = some .brokerClosed := by
  obtain ⟨s, driver⟩ : ∃ s, Subscriber.ofProperties subscribed [] = .ok s := ⟨_, rfl⟩
  obtain ⟨p, bus⟩ : ∃ p, Publisher.withBroker [] "localhost:1" = .ok p := ⟨_, rfl⟩
  have accounted := links_accounted driver (.inr bus)
    [.start ⟨[]⟩ welcoming, .start ⟨[]⟩ welcoming, .stop] []
  obtain ⟨driverTidy, busTidy, -⟩ := accounted
  refine ⟨s, p, driver, bus, ?_, ?_⟩
  · cases driver
    exact driverTidy.accounted.gone 0 (by decide) nofun (driverTidy.single 0)
  · cases bus
    exact (busTidy.broker rfl).2 _ _ rfl

-- The first connection is open beside the second one, and stays so when the bus stops.
theorem restarted_bus_leaks :
    ∃ p, Publisher.ofProperties hosted = .ok p ∧
      Open (p.afterCalls [.start (.ok ()) welcoming, .start (.ok ()) welcoming]).history 0 ∧
      Open (p.afterCalls [.start (.ok ()) welcoming, .start (.ok ()) welcoming]).history 1 ∧
      Open (p.afterCalls [.start (.ok ()) welcoming, .start (.ok ()) welcoming, .stop]).history 0 := by
  obtain ⟨p, made⟩ : ∃ p, Publisher.ofProperties hosted = .ok p := ⟨_, rfl⟩
  refine ⟨p, made, ?_⟩
  cases made
  decide

end FieldGateway.Mqtt
