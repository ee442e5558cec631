import Ledger.Error
import Ledger.Event

namespace Ledger

/-- A listener with the messages it has been sent and not yet taken. One that has left takes no more
messages. -/
structure Subscriber where
  name : String
  inbox : List Message := []
  listening : Bool := true
deriving DecidableEq

namespace Subscriber

/-- Sends a message, unless the listener has left. -/
def send? (s : Subscriber) (m : Message) : Option Subscriber :=
  if s.listening then some { s with inbox := s.inbox ++ [m] } else none

/-- Whether it is the listener of the given name, and has not left. -/
def hearsAs (s : Subscriber) (name : String) : Bool :=
  s.listening && s.name = name

end Subscriber

/-- An event bus that keeps what it accepts, in order. It can be taken offline, or be told to refuse
the next few messages. Listeners who have left are forgotten when the next message is sent. -/
structure Publisher where
  online : Bool := true
  failures : Nat := 0
  published : List Message := []
  subscribers : List Subscriber := []
deriving DecidableEq

namespace Publisher

def rejection (m : Message) : PublishError :=
  .unavailable s!"in-memory bus rejected message on {m.topic}"

/-- Keeps a message and sends it to the subscribers; those it cannot be sent to are dropped. -/
def accept (p : Publisher) (m : Message) : Publisher :=
  { p with
    published := p.published ++ [m]
    subscribers := p.subscribers.filterMap (·.send? m) }

/-- Offers a message. Refusing it while offline uses up none of the failures to come. -/
def publish (p : Publisher) (m : Message) : Publisher × Except PublishError Unit :=
  if !p.online then (p, .error (rejection m))
  else if p.failures = 0 then (p.accept m, .ok ())
  else ({ p with failures := p.failures - 1 }, .error (rejection m))

def setOnline (p : Publisher) (online : Bool) : Publisher :=
  { p with online }

/-- Lets the next `count` messages be refused. -/
def failNext (p : Publisher) (count : Nat) : Publisher :=
  { p with failures := count }

/-- The messages of one topic. -/
def publishedOn (p : Publisher) (topic : String) : List Message :=
  p.published.filter (·.topic = topic)

/-- The subscriber of the given name leaves. -/
def unsubscribe (p : Publisher) (name : String) : Publisher :=
  { p with
    subscribers := p.subscribers.map fun s =>
      if s.hearsAs name then { s with listening := false } else s }

/-- Adds a subscriber, who hears of everything accepted from now on. Another of the same name
leaves. -/
def subscribe (p : Publisher) (name : String) : Publisher :=
  { p with subscribers := (p.unsubscribe name).subscribers ++ [{ name }] }

/-- The messages a subscriber has been sent and not yet taken. -/
def inbox? (p : Publisher) (name : String) : Option (List Message) :=
  (p.subscribers.find? (·.hearsAs name)).map (·.inbox)

/-- Empties the inbox of a subscriber. -/
def take (p : Publisher) (name : String) : Publisher :=
  { p with
    subscribers := p.subscribers.map fun s => if s.hearsAs name then { s with inbox := [] } else s }

end Publisher

end Ledger
