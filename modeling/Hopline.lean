import Hopline.Bench.Circuit
import Hopline.Codec.Journal
import Hopline.Codec.Script
import Hopline.Command.Folder
import Hopline.Line.Channel
import Hopline.Line.Stream
import Hopline.Main
import Hopline.Proofs.Bytes
import Hopline.Schedule.Scripted
import Hopline.Proofs.Bits
import Hopline.Proofs.Codec.Writer
import Hopline.Proofs.Codec.Reader
import Hopline.Proofs.Codec.Script
import Hopline.Proofs.Codec.RoundTrip
import Hopline.Proofs.Frame.Header
import Hopline.Proofs.Frame.Encode
import Hopline.Proofs.Frame.Decode
import Hopline.Proofs.Frame.RoundTrip
import Hopline.Proofs.Bus.SingleDrainer
import Hopline.Proofs.Bus.History
import Hopline.Proofs.Bench.Nesting
import Hopline.Proofs.Bench.Uses
import Hopline.Proofs.Bus.FrameOrder
import Hopline.Proofs.Receive.Search
import Hopline.Proofs.Receive.Stream
import Hopline.Proofs.Receive.CleanStream
import Hopline.Proofs.Bus.Quiet
import Hopline.Proofs.Ring.Journey
import Hopline.Proofs.Ring.Link
import Hopline.Proofs.Ring.Ledger
import Hopline.Proofs.Ring.Delivery
import Hopline.Proofs.Receive.Segments
import Hopline.Proofs.Receive.Silence
import Hopline.Proofs.Receive.TailScan
import Hopline.Proofs.Receive.Resync
import Hopline.Proofs.Bus.Relay
import Hopline.Proofs.Bus.Balance
import Hopline.Proofs.Bus.Failures
import Hopline.Proofs.Bus.Losses
import Hopline.Proofs.Codec.Capacity
import Hopline.Proofs.Codec.WriterSafety
import Hopline.Proofs.Codec.ReaderSafety
import Hopline.Proofs.Codec.WriteBack
import Hopline.Proofs.Transmit.Fates
import Hopline.Proofs.Schedule.Paths
import Hopline.Proofs.Schedule.CycleSearch
import Hopline.Proofs.Schedule.Moves
import Hopline.Proofs.Schedule.Descent
import Hopline.Proofs.Schedule.Dependencies
import Hopline.Proofs.Schedule.CallLog
import Hopline.Proofs.Schedule.Scripted
import Hopline.Proofs.Schedule.Discipline
import Hopline.Proofs.Schedule.Awakening
import Hopline.Proofs.Schedule.Rearrangement
import Hopline.Proofs.Bus.Registrations
import Hopline.Proofs.Receive.Recovery
import Hopline.Proofs.Codec.PackedFields
import Hopline.Proofs.Frame.ShiftRegister
import Hopline.Proofs.Frame.ErrorDetection
import Hopline.Proofs.Frame.BoundaryBursts
import Hopline.Proofs.Codec.OppositeOrders
import Hopline.Proofs.Codec.TextFields
import Hopline.Proofs.Text.HexDigits
import Hopline.Proofs.Command.EncodeDecode
import Hopline.Proofs.Schedule.Eager
import Hopline.Proofs.Ring.Pumping
import Hopline.Proofs.Ring.Crossing
import Hopline.Proofs.Ring.Rounds
import Hopline.Proofs.Command.Simulation
import Hopline.Proofs.Schedule.Unbounded
import Hopline.Line.Handle
import Hopline.Proofs.Codec.LongerInput
import Hopline.Proofs.Line.Transmission
import Hopline.Proofs.Text.HexText
import Hopline.Proofs.Frame.Remainder
