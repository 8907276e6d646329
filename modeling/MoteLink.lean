import MoteLink.Frame.Receiver
import MoteLink.Packet.Basic
import MoteLink.Endpoint.Parser
import MoteLink.Link.Session
import MoteLink.Reader.Script
import MoteLink.Main
import MoteLink.Hub.Script
import MoteLink.Link.Framed
import MoteLink.Proofs.Frame.Batch
import MoteLink.Proofs.Link.Chunking
import MoteLink.Proofs.Pipeline.Printing
import MoteLink.Proofs.Time.Order
import MoteLink.Proofs.Pipeline.Listing
import MoteLink.Proofs.Speed.Ready
import MoteLink.Proofs.Endpoint.Faults
import MoteLink.Proofs.Link.Ledger
import MoteLink.Proofs.Link.Opening
import MoteLink.Proofs.Contract
import MoteLink.Proofs.Reader.Runs
import MoteLink.Proofs.Reader.Account
import MoteLink.Proofs.Reader.Waning
import MoteLink.Proofs.Reader.Stays
import MoteLink.Proofs.Reader.Aftermath
import MoteLink.Proofs.Reader.Deeds
import MoteLink.Proofs.Tracking
import MoteLink.Proofs.Link.Handling
import MoteLink.Proofs.Link.Connecting
import MoteLink.Proofs.Link.Closings
import MoteLink.Proofs.Agreement
import MoteLink.Proofs.Link.Renewal
import MoteLink.Proofs.Link.Draining
import MoteLink.Proofs.Reader.Revival
import MoteLink.Proofs.Link.Answering
import MoteLink.Proofs.Link.Measured
import MoteLink.Proofs.Company
import MoteLink.Proofs.Reader.Turns
import MoteLink.Proofs.Hub.Standing
import MoteLink.Proofs.Frame.Division
import MoteLink.Proofs.Frame.Remainder
import MoteLink.Proofs.Frame.Disturbance
import MoteLink.Proofs.Endpoint.Description
import MoteLink.Proofs.Packet.Format
import MoteLink.Proofs.Frame.Bounds
import MoteLink.Proofs.Endpoint.Grammar
import MoteLink.Proofs.Frame.Uniqueness
import MoteLink.Proofs.Packet.Views
import MoteLink.Proofs.Reader.Quiet
