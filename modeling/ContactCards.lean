import ContactCards.Main
import ContactCards.Proofs.Calendar.DateForms
import ContactCards.Proofs.Calendar.DatePrinting
import ContactCards.Proofs.Calendar.TimestampForms
import ContactCards.Proofs.Calendar.TimestampPrinting
import ContactCards.Proofs.Card.ParameterPuts
import ContactCards.Proofs.Command.FullOutput
import ContactCards.Proofs.Command.Printing
import ContactCards.Proofs.Command.ReportLines
import ContactCards.Proofs.Decode.Components
import ContactCards.Proofs.Decode.Outline
import ContactCards.Proofs.Decode.RawValue
import ContactCards.Proofs.Decode.Repeats
import ContactCards.Proofs.Markup.Acceptance
import ContactCards.Proofs.Markup.CharacterReference
import ContactCards.Proofs.Markup.Growth
import ContactCards.Proofs.Markup.Scope
import ContactCards.Proofs.Reading.Conservation
import ContactCards.Proofs.Reading.GroupLabels
import ContactCards.Proofs.Reading.KeptAsXml
import ContactCards.Proofs.Reading.Position
import ContactCards.Proofs.Reading.Replay
import ContactCards.Proofs.Reading.StandardReading
import ContactCards.Proofs.Reading.Stopping
import ContactCards.Proofs.Reading.TreeInput
import ContactCards.Proofs.Reading.ValueText
