import FieldGateway.Mqtt.Handshake

-- A connection that stands. Requests wait in a queue of limited length, and the connection's
-- own task takes them out one at a time and reads what the broker sends. What waits is assumed
-- to outlast a loss of the connection; the client library may drop it when the broker that is
-- reached again has kept no session.
namespace FieldGateway.Mqtt

inductive Request where
  | subscribe (subscription : Subscription)
  | publish (topic : Text) (quality : Quality) (payload : Text)
  | disconnect
deriving DecidableEq

def Request.packet : Request → Packet
  | subscribe s => .subscribe s
  | publish topic quality payload => .publish topic quality payload
  | disconnect => .disconnect

def queueCapacity : Nat := 64

structure Connection where
  subscriptions : List Subscription
  listening : Bool
  queue : List Request
  sent : List Packet
  delivered : List Message
  closed : Bool
deriving DecidableEq

inductive Activity where
  | event (event : Event)
  | drain
  | publish (topic : Text) (quality : Quality) (payload : Text)
  | disconnect
  | stopListening
  | abandon
deriving DecidableEq

def hasWildcard (topic : Text) : Bool := topic.any fun c => c = '+' || c = '#'

inductive PublishOutcome where
  | queued
  | waiting
  | refused
deriving DecidableEq

namespace Connection

def hasRoom (c : Connection) : Bool := c.queue.length < queueCapacity

def enqueue (c : Connection) (r : Request) : Connection := { c with queue := c.queue ++ [r] }

-- The task may not wait for the queue that it drains itself, so what finds no room is dropped.
def tryEnqueue (c : Connection) (r : Request) : Connection := if c.hasRoom then c.enqueue r else c

def resubscribe (c : Connection) : Connection :=
  c.subscriptions.foldl (fun c s => c.tryEnqueue (.subscribe s)) c

def report (c : Connection) : Event → Connection
  | .published m => if c.listening then { c with delivered := c.delivered ++ [m] } else c
  | .accepted false => c.resubscribe
  | .accepted true | .acknowledged _ | .other | .lost | .silence => c

def drain (c : Connection) : Connection :=
  match c.queue with
  | [] => c
  | .disconnect :: rest => { c with queue := rest, sent := c.sent ++ [.disconnect], closed := true }
  | r :: rest => { c with queue := rest, sent := c.sent ++ [r.packet] }

def publishOutcome (c : Connection) (topic : Text) : PublishOutcome :=
  if hasWildcard topic then .refused else if c.hasRoom then .queued else .waiting

def publish (c : Connection) (topic : Text) (quality : Quality) (payload : Text) : Connection :=
  match c.publishOutcome topic with
  | .queued => c.enqueue (.publish topic quality payload)
  | .waiting | .refused => c

def apply (c : Connection) (a : Activity) : Connection :=
  if c.closed then c
  else match a with
    | .event e => c.report e
    | .drain => c.drain
    | .publish topic quality payload => c.publish topic quality payload
    | .disconnect => c.tryEnqueue .disconnect
    | .stopListening => { c with listening := false }
    | .abandon => { c with closed := true }

def run (c : Connection) (activities : List Activity) : Connection := activities.foldl apply c

-- What the handshake left unread is what the task reads first.
def ofShaken (subscriptions : List Subscription) (listening : Bool) (s : Shaken) : Connection :=
  let opened : Connection := ⟨subscriptions, listening, [], s.sent, [], false⟩
  s.unread.foldl report opened

end Connection

def publishFault (topic : Text) : Fault := .connectionFailure ("failed to publish to " ++ topic)

end FieldGateway.Mqtt
