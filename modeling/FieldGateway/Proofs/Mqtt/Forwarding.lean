import FieldGateway.Proofs.Json.Structure
import FieldGateway.Proofs.Mqtt.Registrations
import FieldGateway.Proofs.Telemetry.Bus
import FieldGateway.Proofs.Text.ByteOrder

-- What a subscriber makes of the messages that arrive between its calls.
namespace FieldGateway.Mqtt

variable {name : Text} {device : Device} {stamp : Int}

inductive Results (name : Text) (device : Device) (stamp : Int) : Json.Fields → List Delivery → Prop where
  | nil : Results name device stamp [] []
  | passed (known : Resource.Named device.resources key resource)
      (fits : Value.ofReading resource.type reading = .ok value) (rest : Results name device stamp fields ds) :
      Results name device stamp ((key, reading) :: fields)
        (⟨name, ⟨resource.name, resource.type, value, stamp⟩⟩ :: ds)
  | unknown (absent : ∀ resource ∈ device.resources, resource.name ≠ key) (rest : Results name device stamp fields ds) :
      Results name device stamp ((key, reading) :: fields) ds
  | misfit (known : Resource.Named device.resources key resource)
      (unfit : Value.ofReading resource.type reading = .error misfit) (rest : Results name device stamp fields ds) :
      Results name device stamp ((key, reading) :: fields) ds

theorem deliveriesOf_results (device : Device) (stamp : Int) (fields : Json.Fields) :
    Results device.name device stamp fields (deliveriesOf device stamp fields) := by
  induction fields with
  | nil => exact .nil
  | cons field fields ih =>
    obtain ⟨key, reading⟩ := field
    unfold deliveriesOf
    split
    · rename_i absent
      exact .unknown (Resource.find?_eq_none_iff.mp absent) ih
    · rename_i resource found
      have known := Resource.find?_eq_some_iff.mp found
      cases read : Value.ofReading resource.type reading with
      | ok value =>
        simp only [Telemetry.ofReading, read]
        exact .passed known read ih
      | error misfit =>
        simp only [Telemetry.ofReading, read]
        exact .misfit known read ih

theorem named_unique {resources : List Resource} {one other : Resource} (known : Resource.Named resources name one)
    (also : Resource.Named resources name other) : one = other :=
  Option.some.inj ((Resource.find?_eq_some_iff.mpr known).symm.trans (Resource.find?_eq_some_iff.mpr also))

theorem Results.unique {fields : Json.Fields} (results : Results name device stamp fields ds)
    (also : Results name device stamp fields more) : ds = more := by
  induction results generalizing more with
  | nil => cases also; rfl
  | passed known fits rest ih =>
    cases also with
    | passed known' fits' rest' =>
      cases named_unique known known'
      cases fits.symm.trans fits'
      rw [ih rest']
    | unknown absent => exact absurd known.own (absent _ known.mem)
    | misfit known' unfit =>
      cases named_unique known known'
      cases fits.symm.trans unfit
  | unknown absent rest ih =>
    cases also with
    | passed known => exact absurd known.own (absent _ known.mem)
    | unknown _ rest' => exact ih rest'
    | misfit known => exact absurd known.own (absent _ known.mem)
  | misfit known unfit rest ih =>
    cases also with
    | passed known' fits =>
      cases named_unique known known'
      cases unfit.symm.trans fits
    | unknown absent => exact absurd known.own (absent _ known.mem)
    | misfit _ _ rest' => exact ih rest'

-- The payload is the text of a JSON object with these members, in the order in which they are
-- written. No text of a document nests deeper than `deepest`.
def Spells (payload : List Byte) (members : List (Text × Json)) : Prop :=
  ∃ t, payload = Text.toBytes t ∧ Json.tokens? t = some (Json.tokens (.object members)) ∧
    (Json.object members).depth ≤ Json.deepest

structure Settles (members : List (Text × Json)) (fields : Json.Fields) : Prop where
  ordered : fields.Pairwise fun a b => Text.toBytes a.1 < Text.toBytes b.1
  latest : ∀ key reading, (key, reading) ∈ fields ↔ ∃ written, Json.Last members key written ∧ reading = written.settled

theorem ascending_iff_bytes {fields : Json.Fields} :
    Table.Ascending fields ↔ fields.Pairwise fun a b => Text.toBytes a.1 < Text.toBytes b.1 := by
  simp only [Table.Ascending, Text.precedes_iff_bytes_lt]

theorem settles_settledMembers (members : List (Text × Json)) : Settles members (Json.settledMembers [] members) :=
  ⟨ascending_iff_bytes.mp (Json.settledMembers_ascending .nil), fun _ _ => Json.mem_settledMembers⟩

theorem Settles.eq (settles : Settles members fields) : fields = Json.settledMembers [] members := by
  have ascending := ascending_iff_bytes.mpr settles.ordered
  refine ascending.ext (Json.settledMembers_ascending .nil) ?_
  intro field
  rw [settles.latest field.1 field.2]
  exact Json.mem_settledMembers.symm

theorem payloadFields?_eq_some_iff :
    payloadFields? payload = some fields ↔ ∃ members, Spells payload members ∧ Settles members fields := by
  constructor
  · intro read
    unfold payloadFields? at read
    split at read
    · rename_i fields' read'
      cases read
      obtain ⟨t, decoded, document⟩ := Option.bind_eq_some_iff.mp read'
      obtain ⟨members, spelled, shallow, rfl⟩ := Json.read?_object_iff.mp document
      exact ⟨members, ⟨t, Text.ofBytes?_eq_some_iff.mp decoded, spelled, shallow⟩, settles_settledMembers members⟩
    · cases read
  · rintro ⟨members, ⟨t, rfl, spelled, shallow⟩, settles⟩
    have document := Json.read?_object_iff.mpr ⟨members, spelled, shallow, settles.eq⟩
    simp [payloadFields?, Text.ofBytes?_toBytes, document]

namespace Subscriber

-- What a subscriber hands on while these actions come after those of the past, message by message.
-- A message speaks of a device by its topic, and counts if the device is registered then.
inductive Conveys (filter : Text) : List Action → List Action → List Delivery → Prop where
  | done {past : List Action} : Conveys filter past [] []
  | called {past actions : List Action} (call : ∀ stamp m, action ≠ .message stamp m)
      (rest : Conveys filter (past ++ [action]) actions ds) : Conveys filter past (action :: actions) ds
  | heard {past actions : List Action} {stamp : Int} {name : Text} {device : Device}
      (topic : Topic.deviceName? filter m.topic = some name) (registered : Registers past name device)
      (spells : Spells m.payload members) (settles : Settles members fields)
      (results : Results name device stamp fields now)
      (rest : Conveys filter (past ++ [.message stamp m]) actions ds) :
      Conveys filter past (.message stamp m :: actions) (now ++ ds)
  | ignored {past actions : List Action} {stamp : Int}
      (nothing : ∀ name device members, Topic.deviceName? filter m.topic = some name →
        Registers past name device → ¬ Spells m.payload members)
      (rest : Conveys filter (past ++ [.message stamp m]) actions ds) :
      Conveys filter past (.message stamp m :: actions) ds

variable {s : Subscriber} {past actions : List Action} {filter : Text}

theorem registered_name (registered : Registers past name device) : device.name = name := by
  obtain ⟨before, action, after, -, offers, -⟩ := registered
  exact offers.named

theorem deliveries_parts (tracks : Tracks past s.devices) (filter : Text) (stamp : Int) (m : Message) :
    (∃ name device members fields, Topic.deviceName? filter m.topic = some name ∧ Registers past name device ∧
      Spells m.payload members ∧ Settles members fields ∧
      Results name device stamp fields (deliveries s.devices filter stamp m)) ∨
    (deliveries s.devices filter stamp m = [] ∧ ∀ name device members, Topic.deviceName? filter m.topic = some name →
      Registers past name device → ¬ Spells m.payload members) := by
  unfold deliveries
  split
  · rename_i untold
    exact .inr ⟨rfl, fun name device members topic => by cases untold.symm.trans topic⟩
  · rename_i name topic
    split
    · rename_i absent
      refine .inr ⟨rfl, fun other device members same registered => ?_⟩
      cases topic.symm.trans same
      cases absent.symm.trans ((tracks.registered name device).mpr registered)
    · rename_i device found
      have registered := (tracks.registered name device).mp found
      split
      · rename_i unread
        refine .inr ⟨rfl, fun other device members same registered spells => ?_⟩
        have known := payloadFields?_eq_some_iff.mpr ⟨members, spells, settles_settledMembers members⟩
        cases unread.symm.trans known
      · rename_i fields read
        obtain ⟨members, spells, settles⟩ := payloadFields?_eq_some_iff.mp read
        have results := deliveriesOf_results device stamp fields
        rw [registered_name registered] at results
        exact .inl ⟨name, device, members, fields, topic, registered, spells, settles, results⟩

theorem apply_call (s : Subscriber) (action : Action) (call : ∀ stamp m, action ≠ .message stamp m) :
    ∃ devices, s.apply action = { s with devices := devices } := by
  cases action with
  | message stamp m => exact absurd rfl (call stamp m)
  | remove name => exact ⟨_, rfl⟩
  | add device =>
    simp only [apply, addDevice]
    split
    · exact ⟨_, rfl⟩
    · split <;> exact ⟨_, rfl⟩

theorem run_conveys (tracks : Tracks past s.devices) :
    ∃ ds, (s.run actions).buses = Bus.forwardAll s.buses ds ∧ Conveys s.settings.subTopic past actions ds := by
  induction actions generalizing s past with
  | nil => exact ⟨[], rfl, .done⟩
  | cons action actions ih =>
    obtain ⟨ds, buses, conveys⟩ := ih (tracks.step action)
    have called : (∀ stamp m, action ≠ .message stamp m) → ∃ ds,
        (s.run (action :: actions)).buses = Bus.forwardAll s.buses ds ∧
          Conveys s.settings.subTopic past (action :: actions) ds := by
      intro call
      obtain ⟨devices, same⟩ := apply_call s action call
      have run : s.run (action :: actions) = (s.apply action).run actions := rfl
      rw [run, buses]
      rw [same] at conveys ⊢
      exact ⟨ds, rfl, .called call conveys⟩
    cases action with
    | add device => exact called nofun
    | remove name => exact called nofun
    | message stamp m =>
      refine ⟨deliveries s.devices s.settings.subTopic stamp m ++ ds, ?_, ?_⟩
      · exact buses.trans (List.foldl_append ..).symm
      · rcases deliveries_parts tracks s.settings.subTopic stamp m with
          ⟨name, device, members, fields, topic, registered, spells, settles, results⟩ | ⟨nothing, ignored⟩
        · exact .heard topic registered spells settles results conveys
        · rw [nothing]
          exact .ignored ignored conveys

theorem Conveys.unique (tracks : Tracks past s.devices) (conveys : Conveys filter past actions ds)
    (also : Conveys filter past actions more) : ds = more := by
  induction conveys generalizing s more with
  | done => cases also; rfl
  | called call rest ih =>
    cases also with
    | called _ rest' => exact ih (tracks.step _) rest'
    | heard | ignored => exact absurd rfl (call _ _)
  | heard topic registered spells settles results rest ih =>
    cases also with
    | called call => exact absurd rfl (call _ _)
    | heard topic' registered' spells' settles' results' rest' =>
      cases topic.symm.trans topic'
      cases ((tracks.registered _ _).mpr registered).symm.trans ((tracks.registered _ _).mpr registered')
      have fields := payloadFields?_eq_some_iff.mpr ⟨_, spells, settles⟩
      cases fields.symm.trans (payloadFields?_eq_some_iff.mpr ⟨_, spells', settles'⟩)
      rw [results.unique results', ih (tracks.step _) rest']
    | ignored nothing => exact absurd spells (nothing _ _ _ topic registered)
  | ignored nothing rest ih =>
    cases also with
    | called call => exact absurd rfl (call _ _)
    | heard topic registered spells => exact absurd spells (nothing _ _ _ topic registered)
    | ignored _ rest' => exact ih (tracks.step _) rest'

-- Whatever calls and messages come, and whatever the buses refuse, all of them are offered the
-- same: what the messages convey, one after the other.
theorem messages_forwarded (fresh : s.devices = []) (actions : List Action) :
    ∃ ds, (s.run actions).buses = s.buses.map (fun b => { b with offered := b.offered ++ ds }) ∧
      ∀ more, Conveys s.settings.subTopic [] actions more ↔ more = ds := by
  have tracks : Tracks [] s.devices := fresh ▸ .nil
  obtain ⟨ds, buses, conveys⟩ := run_conveys tracks
  refine ⟨ds, buses.trans (Bus.forwardAll_eq ..), fun more => ?_⟩
  constructor
  · exact fun other => other.unique tracks conveys
  · rintro rfl
    exact conveys

def boiler (type : Text) (resource : Text) : Device :=
  ⟨"boiler", type, none, none, none, [], ⟨[⟨resource, none, .ofType .bool, []⟩]⟩⟩

def listening : Subscriber :=
  ⟨⟨.ofHost "localhost", "plant/+/data", none⟩, .atMostOnce, [], [⟨"deaf", fun _ => some (.timeout "asleep"), []⟩], none, 0,
    []⟩

def reconfigured : List Action :=
  [.add (boiler "opcua" "level"), .add (boiler "mqtt" "burning"), .add (boiler "mqtt" "level"),
    .message 1 ⟨"plant/boiler/data", Text.toBytes "\x7b\"level\":1,\"burning\":true,\"burning\":0\x7d"⟩,
    .remove "boiler", .message 2 ⟨"plant/boiler/data", Text.toBytes "\x7b\"burning\":true\x7d"⟩]

theorem messages_forwarded_reconfigured :
    ∃ ds, (listening.run reconfigured).buses.map Bus.offered = [ds] ∧ Conveys "plant/+/data" [] reconfigured ds ∧
      ds = [⟨"boiler", ⟨"burning", .bool, .bool false, 1⟩⟩] := by
  have offered : (listening.run reconfigured).buses.map Bus.offered =
      [[⟨"boiler", ⟨"burning", .bool, .bool false, 1⟩⟩]] := by
    rfl
  obtain ⟨ds, buses, conveys⟩ := messages_forwarded (s := listening) rfl reconfigured
  have same : (listening.run reconfigured).buses.map Bus.offered = [ds] := by
    rw [buses]
    rfl
  refine ⟨ds, same, (conveys ds).mpr rfl, ?_⟩
  rw [offered] at same
  exact (List.singleton_inj.mp same).symm

end Subscriber
end FieldGateway.Mqtt
