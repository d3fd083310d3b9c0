import Dialogue.Proofs.Appointment.Assent
import Dialogue.Proofs.Appointment.Attention
import Dialogue.Proofs.Appointment.Booking
import Dialogue.Proofs.Appointment.Discretion
import Dialogue.Proofs.Appointment.Dispatch
import Dialogue.Proofs.Appointment.Impartial
import Dialogue.Proofs.Appointment.Knowledge
import Dialogue.Proofs.Appointment.Quotation
import Dialogue.Proofs.Appointment.Renewal
import Dialogue.Proofs.Appointment.Verdict
import Dialogue.Proofs.Appointment.Voice
import Dialogue.Proofs.Chart.Address
import Dialogue.Proofs.Chart.Arena
import Dialogue.Proofs.Chart.Faults
import Dialogue.Proofs.Chart.Lookup
import Dialogue.Proofs.Chart.Order
import Dialogue.Proofs.Chart.Scope
import Dialogue.Proofs.Engine.Choice
import Dialogue.Proofs.Engine.Delivery
import Dialogue.Proofs.Engine.Ignored
import Dialogue.Proofs.Engine.Internal
import Dialogue.Proofs.Engine.Itinerary
import Dialogue.Proofs.Engine.Passage
import Dialogue.Proofs.Engine.Pseudostates
import Dialogue.Proofs.Engine.Renaming
import Dialogue.Proofs.Engine.Resumption
import Dialogue.Proofs.Engine.Strays
import Dialogue.Proofs.Engine.Tickets
import Dialogue.Proofs.Journal.Retention
import Dialogue.Proofs.Session.Answers
import Dialogue.Proofs.Text.Phrases
import Dialogue.Proofs.Text.Placeholders
import Dialogue.Proofs.Text.Subject
import Dialogue.Proofs.Wire.RoundTrip
import Dialogue.Resolver.Grammar
import Dialogue.Resolver.Prediction
import Dialogue.Session
import Dialogue.Wire.Context
import Dialogue.Wire.Event
import Dialogue.Wire.Journal
import Dialogue.Wire.Text
