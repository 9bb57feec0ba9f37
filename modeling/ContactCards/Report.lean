import ContactCards.Reading.Session

/-!
The report on cards: for each card a summary line, a line for each property and, if they are asked
for, a line for each warning. An output may run out of room; what does not fit is cut off, and
reading stops.
-/

namespace ContactCards

/-- Bytes written, and the number that may still be written, if there is a limit. -/
structure Output where
  written : List UInt8
  room : Option Nat
  deriving DecidableEq, Repr

namespace Output

def unlimited : Output := ⟨[], none⟩

def limited (room : Nat) : Output := ⟨[], some room⟩

/-- Writes as many bytes as fit, and says whether all did. -/
def write (o : Output) (bytes : List UInt8) : Output × Bool :=
  match o.room with
  | none => (⟨o.written ++ bytes, none⟩, true)
  | some room =>
    (⟨o.written ++ bytes.take room, some (room - bytes.length)⟩, decide (bytes.length ≤ room))

end Output

namespace Report

/-- The line of a property, without its indentation. -/
def propertyLine (p : Property) : String :=
  (p.group.map (· ++ ".")).getD "" ++ p.name ++
    (if p.parameters.isEmpty then "" else ";" ++ p.parameters.render) ++ ": " ++ p.value.render

/-- The summary line of the `n`th card. -/
def summaryLine (n : Nat) (card : Card) : String :=
  s!"card {n}: version " ++ card.version.render ++ s!", {card.size} properties"

/-- The lines about the `n`th card. -/
def lines (showWarnings : Bool) (n : Nat) (delivery : Delivery) : List String :=
  summaryLine n delivery.card :: delivery.card.properties.map ("  " ++ propertyLine ·) ++
    if showWarnings then delivery.warnings.map ("  warning: " ++ ·.render) else []

/-- The lines about the `n`th card as they are written. -/
def block (showWarnings : Bool) (n : Nat) (delivery : Delivery) : String :=
  String.join ((lines showWarnings n delivery).map (· ++ "\n"))

end Report

/-- A report in progress: its output, the cards reported so far, and whether the output ran out of
room since that was last asked. -/
structure Printer where
  output : Output
  showWarnings : Bool
  cards : Nat
  failed : Bool
  deriving DecidableEq, Repr

namespace Printer

def start (output : Output) (showWarnings : Bool) : Printer :=
  ⟨output, showWarnings, 0, false⟩

/-- Reports a card. A card counts even if it does not fit. -/
def print (printer : Printer) (delivery : Delivery) : Printer × Flow :=
  let n := printer.cards + 1
  let (output, fits) :=
    printer.output.write (Utf8.encode (Report.block printer.showWarnings n delivery))
  ({ printer with output, cards := n, failed := printer.failed || !fits },
    if fits then .more else .stop)

/-- Forgets that the output ran out of room. -/
def clear (printer : Printer) : Printer :=
  { printer with failed := false }

def listener : Listener Printer := ⟨print⟩

end Printer

end ContactCards
