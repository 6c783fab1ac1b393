import Smsc.Main
import Smsc.Simulation.Management
import Smsc.Simulation.Server
import Smsc.Simulation.Session
import Smsc.Simulation.Window
import Smsc.Proofs.Window.Outcome
import Smsc.Proofs.Window.Race
import Smsc.Proofs.Pdu.Answer
import Smsc.Proofs.Wire.Fields
import Smsc.Proofs.Pdu.RoundTrip
import Smsc.Proofs.Pdu.Stream
import Smsc.Proofs.Session.Beside
import Smsc.Proofs.Session.Calls
import Smsc.Proofs.Session.Correlation
import Smsc.Proofs.Session.OneReply
import Smsc.Proofs.Session.Protocol
import Smsc.Proofs.Session.Binding
import Smsc.Proofs.Session.Places
import Smsc.Proofs.Window.Capacity
import Smsc.Proofs.Session.Leaks
import Smsc.Proofs.Session.Writing
import Smsc.Proofs.Session.Closing
import Smsc.Proofs.Session.Introduced
import Smsc.Proofs.Session.Readable
import Smsc.Proofs.Pdu.Canonical
import Smsc.Proofs.Window.Fairness
import Smsc.Proofs.Session.Deadlines
import Smsc.Proofs.Server.Stop
import Smsc.Proofs.Server.Shared
import Smsc.Proofs.Server.Hooks
import Smsc.Proofs.Window.Overlap
import Smsc.Proofs.Session.Numbers
import Smsc.Proofs.Session.Verdicts
import Smsc.Proofs.Session.FramesOnce
import Smsc.Proofs.Session.Sweeping
import Smsc.Proofs.Packet.Wire
import Smsc.Proofs.Pdu.Limits
import Smsc.Proofs.Session.HandedOver
import Smsc.Proofs.Pdu.Parameters
import Smsc.Proofs.Text.Numeral
import Smsc.Session.Shared
import Smsc.Proofs.Session.MessageIds
import Smsc.Proofs.Session.Acts
import Smsc.Proofs.Session.Totals
import Smsc.Proofs.Session.Balance
import Smsc.Proofs.Session.Refusals
import Smsc.Proofs.Server.Accepting
import Smsc.Proofs.Server.Gauges
