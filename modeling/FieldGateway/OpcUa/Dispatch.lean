import FieldGateway.OpcUa.Fleet

-- One order in which the moves of a fleet can come: whoever can go on waits in a queue, takes
-- as many moves as possible when its turn comes, and time only passes when nobody is left.
namespace FieldGateway.OpcUa

inductive Reply where
  | accept
  | refuse (fault : Fault)
  | refuseSubscription (fault : Fault)
  | silence

abbrev Servers := Text → Reply

def Servers.absent (s : Settings) : Servers := fun endpoint =>
  match s.checkSecurity with
  | .error defect => .refuse (.configInvalid defect.message)
  | .ok () => .refuse (.connectionFailure ("failed to get endpoints of " ++ endpoint))

inductive Turn where
  | task (number : Nat)
  | call (number : Nat)
deriving DecidableEq

structure Dispatch where
  fleet : Fleet
  queue : List Turn
  clock : Nat
  deadlines : List (Nat × Nat)

namespace Dispatch

def ofFleet (f : Fleet) : Dispatch := ⟨f, [], 0, []⟩

def endpoint (t : Task) : Text :=
  match endpointOf t.device with
  | .ok endpoint => endpoint
  | .error _ => []

-- What a task can do next. It rests when there is nothing to read.
def nextMove (servers : Servers) (stamp : Int) (t : Task) : Option TaskMove :=
  match t.phase with
  | .created => some .begin
  | .connecting _ => match servers (endpoint t) with
    | .accept | .refuseSubscription _ => some .connected
    | .refuse fault => some (.refused fault)
    | .silence => none
  | .subscribing _ => match servers (endpoint t) with
    | .refuseSubscription fault => some (.unsubscribed fault)
    | .accept | .refuse _ | .silence => some .subscribed
  | .abandoning _ | .closing => some .sessionClosed
  | .recording _ => some .record
  | .failed _ => some .forget
  | .looking _ => some .look
  | .reading _ =>
    if !t.inbox.isEmpty then some .read else if t.severed then some .hangUp else some .rest
  | .forwarding _ _ _ => some (.forward stamp)
  | .ended => none

def isRest : TaskMove → Bool
  | .rest => true
  | _ => false

def advance (servers : Servers) (stamp : Int) (number : Nat) : (fuel : Nat) → Fleet → Fleet
  | 0, f => f
  | fuel + 1, f => match f.tasks[number]? with
    | none => f
    | some t => match nextMove servers stamp t with
      | none => f
      | some move => match f.apply (.task number move) with
        | none => f
        | some f => if isRest move then f else advance servers stamp number fuel f

-- Two moves for every notification and one for each of its changes, and a few before and after.
def patience (t : Task) : Nat :=
  let unfinished := match t.phase with
    | .forwarding _ _ rest => rest.length + 1
    | _ => 0
  t.inbox.foldl (fun moves notification => moves + notification.items.length + 2) (unfinished + 10)

def turnOfTask (servers : Servers) (stamp : Int) (number : Nat) (f : Fleet) : Fleet :=
  match f.tasks[number]? with
  | none => f
  | some t =>
    if t.cancelled && t.phase.isStarting then (f.apply (.task number .drop)).getD f
    else advance servers stamp number (patience t) f

def isReady (f : Fleet) (call : Nat) : Bool := (f.join call).isSome || (f.takeAnswer call).isSome

def wakeCalls (d : Dispatch) : Dispatch :=
  let woken := (List.range d.fleet.calls.length).filter fun call =>
    isReady d.fleet call && Turn.call call ∉ d.queue
  { d with queue := d.queue ++ woken.map Turn.call }

def isWaiting (f : Fleet) (call : Nat) : Bool :=
  match f.calls[call]? with
  | some (.waiting _) => true
  | _ => false

def cancelAll (call : Nat) (f : Fleet) : Fleet :=
  match f.calls[call]? with
  | some (.clearing uncancelled _) =>
    uncancelled.foldl (fun f task => (f.apply (.cancelled call task)).getD f) f
  | _ => f

def turnOfCall (call : Nat) (d : Dispatch) : Dispatch :=
  let f := (d.fleet.join call).getD d.fleet
  match f.takeAnswer call with
  | some f => { d with fleet := f }
  | none =>
    if isWaiting f call then
      match d.deadlines.lookup call with
      | some deadline =>
        if deadline ≤ d.clock then { d with fleet := (f.giveUp call).getD f } else { d with fleet := f }
      | none =>
        let deadline := d.clock + f.settings.connectTimeout
        if deadline ≤ d.clock then { d with fleet := (f.giveUp call).getD f }
        else { d with fleet := f, deadlines := (call, deadline) :: d.deadlines }
    else { d with fleet := f }

def takeTurn (servers : Servers) (stamp : Int) (d : Dispatch) : Turn → Dispatch
  | .task number => wakeCalls { d with fleet := turnOfTask servers stamp number d.fleet }
  | .call number => turnOfCall number d

-- Until nobody can go on. Within one round a task comes up once, and a call three times at most.
def drainWithin (servers : Servers) (stamp : Int) : (fuel : Nat) → Dispatch → Dispatch
  | 0, d => d
  | fuel + 1, d => match d.queue with
    | [] => d
    | turn :: rest => drainWithin servers stamp fuel (takeTurn servers stamp { d with queue := rest } turn)

def drain (servers : Servers) (stamp : Int) (d : Dispatch) : Dispatch :=
  drainWithin servers stamp (d.queue.length + d.fleet.tasks.length + 3 * d.fleet.calls.length + 1) d

def enqueue (d : Dispatch) (turn : Turn) : Dispatch :=
  if turn ∈ d.queue then d else { d with queue := d.queue ++ [turn] }

def liveTasks (f : Fleet) : List Nat := (List.range f.tasks.length).filter fun task => !f.hasEnded task

-- A call makes its first move at once, wakes the tasks that it touched, and is then on its way.
-- The answer names the call.
def issue (d : Dispatch) (move : Move) : Dispatch × Nat :=
  let call := d.fleet.calls.length
  match d.fleet.apply move with
  | none => (d, call)
  | some f =>
    let f := cancelAll call f
    let touched := (liveTasks f).filter fun task =>
      (f.tasks[task]?).any fun t => t.cancelled || d.fleet.tasks.length ≤ task
    let d := { d with fleet := f }
    (turnOfCall call (touched.foldl (fun d task => d.enqueue (.task task)) d), call)

def passTime (d : Dispatch) : Option Dispatch :=
  let open_ := d.deadlines.filter fun (call, _) => isWaiting d.fleet call
  match open_.map (·.2) with
  | [] => none
  | first :: others =>
    let clock := others.foldl min first
    let due := open_.filter fun (_, deadline) => deadline ≤ clock
    some (due.foldl (fun d (call, _) => d.enqueue (.call call)) { d with clock := clock })

def finishWithin (servers : Servers) (stamp : Int) (call : Nat) : (fuel : Nat) → Dispatch → Dispatch
  | 0, d => d
  | fuel + 1, d =>
    let d := drain servers stamp d
    if (d.fleet.result? call).isSome then d
    else match passTime d with
      | none => d
      | some d => finishWithin servers stamp call fuel d

def finish (servers : Servers) (stamp : Int) (call : Nat) (d : Dispatch) : Dispatch :=
  finishWithin servers stamp call (d.fleet.calls.length + 2) d

def notify (d : Dispatch) (task : Nat) (notification : Notification) : Option Dispatch :=
  (d.fleet.apply (.notify task notification)).map fun f => { d with fleet := f }.enqueue (.task task)

def sever (d : Dispatch) (task : Nat) : Option Dispatch :=
  (d.fleet.apply (.sever task)).map fun f => { d with fleet := f }.enqueue (.task task)

def wakeTasks (d : Dispatch) : Dispatch :=
  (liveTasks d.fleet).foldl (fun d task => d.enqueue (.task task)) d

end Dispatch
end FieldGateway.OpcUa
