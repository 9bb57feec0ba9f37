import ContactCards.Markup.Load
import ContactCards.Reading.Reader

/-!
Reading an input for a listener. The listener gets each card as soon as it ends, and may stop the
reading; a limit on the number of cards stops it too.
-/

namespace ContactCards

/-- What can be read: a document, the bytes of one that cannot be read any further behind them, for
a reason, or an element that stands for a document. -/
inductive Input where
  | document (bytes : List UInt8)
  | interrupted (bytes : List UInt8) (reason : String)
  | tree (root : Element)

/-- The events of an input. -/
def Input.transcript : Input → Transcript
  | .document bytes => .ofDocument bytes
  | .interrupted bytes reason => .ofInterrupted bytes reason
  | .tree root => ⟨root.events, none⟩

/-- The kind of an input, in a word. -/
def Input.kind : Input → String
  | .document _ => "xml"
  | .interrupted .. => "xml"
  | .tree _ => "tree"

/-- Takes cards one by one. -/
structure Listener (σ : Type) where
  take : σ → Delivery → σ × Flow

namespace Listener

variable {σ : Type}

/-- A listener that keeps every card. -/
def collect : Listener (List Delivery) where
  take taken delivery := (taken ++ [delivery], .more)

/-- The listener that stops when `isEnough` holds of the number of cards taken, or when the given
one does. -/
def limited (listener : Listener σ) (isEnough : Nat → Bool) : Listener (σ × Nat) where
  take := fun (s, taken) delivery =>
    let (s, flow) := listener.take s delivery
    ((s, taken + 1), if isEnough (taken + 1) then .stop else flow)

end Listener

/-- Reads events and hands the cards over. -/
def Reader.sink {σ : Type} (r : Registry) (listener : Listener σ) : Sink (Reader × σ) where
  receive := fun (reader, s) event =>
    match reader.step r event with
    | (reader, none) => ((reader, s), .more)
    | (reader, some delivery) =>
      let (s, flow) := listener.take s delivery
      ((reader, s), flow)

namespace Input

variable {σ : Type}

/-- Reads an input for a listener. There is a fault only if reading got to it. -/
def read (input : Input) (r : Registry) (listener : Listener σ) (s : σ) : σ × Option Fault :=
  let ((_, s), fault) := (Reader.sink r listener).play (.empty, s) input.transcript
  (s, fault)

/-- A limit on the number of cards is reached; there may be none. -/
def limitReached (limit : Option Nat) (taken : Nat) : Bool :=
  (limit.map fun most => decide (most ≤ taken)).getD false

/-- Reads an input up to a limit. The number of cards taken counts unless there was a fault. -/
def readLimited (input : Input) (r : Registry) (limit : Option Nat) (listener : Listener σ)
    (s : σ) : σ × Except Fault Nat :=
  match input.read r (listener.limited (limitReached limit)) (s, 0) with
  | ((s, taken), none) => (s, .ok taken)
  | ((s, _), some fault) => (s, .error fault)

/-- A reader that is set up for an input, as text. -/
def describe (input : Input) (r : Registry) : String :=
  "XCardReader \x7b input: " ++ quoted input.kind ++ ", scribes: " ++ r.describe ++ " \x7d"

end Input

end ContactCards
