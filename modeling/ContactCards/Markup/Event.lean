import ContactCards.Markup.Fault
import ContactCards.Markup.Name

/-!
Events of a document, and their receivers. A receiver may stop the flow when an element finishes;
it then sees nothing of what follows, faults included.
-/

namespace ContactCards

/-- An attribute, known by its local name. -/
structure Attribute where
  name : String
  value : String
  deriving DecidableEq, Repr

/-- The value of the first attribute with a name. -/
def attribute? (attributes : List Attribute) (name : String) : Option String :=
  (attributes.find? (·.name == name)).map Attribute.value

/-- What happens in a document, in order. Character data may come in several runs. -/
inductive Event where
  | start (name : ExpandedName) (attributes : List Attribute)
  | characters (text : String)
  | finish
  deriving DecidableEq, Repr

/-- Whether a receiver wants to see more. -/
inductive Flow where
  | more
  | stop
  deriving DecidableEq, Repr

/-- The events of a document, and the fault that ends them, if one does. -/
structure Transcript where
  events : List Event
  fault : Option Fault
  deriving DecidableEq, Repr

/-- A receiver of events. -/
structure Sink (σ : Type) where
  receive : σ → Event → σ × Flow

namespace Sink

variable {σ : Type}

/-- Hands events over until the receiver stops. -/
def feed (sink : Sink σ) (s : σ) : List Event → σ × Flow
  | [] => (s, .more)
  | event :: events =>
    match sink.receive s event with
    | (s, .more) => sink.feed s events
    | (s, .stop) => (s, .stop)

/-- Hands a document over. Its fault counts only if the receiver gets there. -/
def play (sink : Sink σ) (s : σ) (transcript : Transcript) : σ × Option Fault :=
  match sink.feed s transcript.events with
  | (s, .more) => (s, transcript.fault)
  | (s, .stop) => (s, none)

end Sink

end ContactCards
