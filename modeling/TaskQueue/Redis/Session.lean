import TaskQueue.Redis.Peer

/-!
# Sessions with a scripted server

A transport and one consumer, used step by step, with a server that answers with the replies that a
step brings along. What is seen of a step is its result, the commands that were sent, and how many
replies are left over.

Out of scope: several consumers of one transport.
-/

namespace TaskQueue.Redis

open Engine Time

/-- A transport in use. -/
structure Session where
  config : Config
  isOpen : Bool
  reachable : Bool
  now : Instant
  consumer : Option Consumer
  /-- What was received last. -/
  last : Delivery

namespace Session

/-- What stands for the last delivery before there is one. -/
def noDelivery : Delivery := ⟨⟨"", 0, "0-0"⟩, ⟨"", [], ∅⟩, 0⟩

/-- A transport that was just connected. -/
def start (config : Config) (now : Instant) : Session :=
  ⟨config, true, true, now, none, noDelivery⟩

/-- What is done with a transport. -/
inductive Action where
  | subscribe (topic group : String)
  | publish (topic : String) (m : Message)
  | receive (wait : Span)
  /-- Acknowledges a delivery, or the last one. -/
  | ack (d : Option Delivery)
  | reject (d : Option Delivery) (requeue : Bool)
  | close
  /-- The name of the consumer. -/
  | name
  /-- The server can no longer be reached. -/
  | unlink

/-- What comes of an action. -/
inductive Outcome where
  | finished
  | failed (e : TransportError)
  | received (d : Delivery)
  | named (name : String)
  /-- The action needs a consumer, and there is none. -/
  | noConsumer

/-- What is seen of a step. -/
structure Observation where
  outcome : Outcome
  sent : List Command
  unused : Nat

/-- Where the transport of a session runs during a step. -/
def peer (s : Session) (replies : List Reply) : Peer :=
  ⟨s.isOpen, s.reachable, s.now, replies, []⟩

/-- The outcome of something that has no result. -/
def settled : Result Unit → Outcome
  | .ok () => .finished
  | .error e => .failed e

/-- Sees what a script comes to. -/
def observe (o : Outcome) (p : Peer) : Observation := ⟨o, p.sent, p.replies.length⟩

/-- Does something with the consumer. -/
def withConsumer (s : Session) (p : Peer) (f : Consumer → Observation × Session) :
    Observation × Session :=
  match s.consumer with
  | some c => f c
  | none => (observe .noConsumer p, s)

/-- Carries out an action. Waiting for a delivery ends within one more read than there are
replies. -/
def step (s : Session) (a : Action) (replies : List Reply) : Observation × Session :=
  let p := s.peer replies
  match a with
  | .subscribe topic group =>
    match (Redis.subscribe s.config topic group).run Peer.serve p with
    | (.ok c, p) => (observe .finished p, { s with consumer := some c })
    | (.error e, p) => (observe (.failed e) p, s)
  | .publish topic m =>
    let (r, p) := (Redis.publish s.config topic m).run Peer.serve p
    (observe (settled r) p, s)
  | .receive wait =>
    s.withConsumer p fun c =>
      let ((c, r), p) := (c.receive wait (replies.length + 1)).run Peer.serve p
      let s := { s with consumer := some c }
      match r with
      | some (.ok (some d)) => (observe (.received d) p, { s with last := d })
      | some (.error e) => (observe (.failed e) p, s)
      | _ => (observe .finished p, s)
  | .ack d =>
    s.withConsumer p fun c =>
      let (r, p) := (c.ack (d.getD s.last)).run Peer.serve p
      (observe (settled r) p, s)
  | .reject d requeue =>
    s.withConsumer p fun c =>
      let (r, p) := (c.reject (d.getD s.last) requeue).run Peer.serve p
      (observe (settled r) p, s)
  | .close => (observe .finished p, { s with isOpen := false })
  | .name => (observe (.named s.config.consumer) p, s)
  | .unlink => (observe .finished p, { s with reachable := false })

/-- The longest path of a socket file. -/
def maxSocketPath : Nat := 107

/-- What comes of connecting to a socket file that is not there. The root directory is there, and is
no socket. -/
def socketError (path : Text.Bytes) : LinkError :=
  if path.contains 0 then .zeroInPath
  else if maxSocketPath < path.length then .pathTooLong
  else if path.all (· == 0x2F) then .refused
  else .noSocket

/-- What comes of connecting to a server that does not run. -/
def connectInVain (url : String) : TransportError :=
  .connection <| LinkError.message <|
    match Address.ofUrl url with
    | .error e => .address e
    | .ok (.socket path _) => socketError path
    | .ok (.network ..) => .refused

end Session

end TaskQueue.Redis
