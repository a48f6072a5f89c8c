import FileHopZ.Library.Run
import FileHopZ.Library.LittleEndian
import FileHopZ.Library.Buffer
import FileHopZ.Library.Map
import FileHopZ.Library.Reorder
import FileHopZ.Library.FileSystem
import FileHopZ.Library.Containment
import FileHopZ.Library.Growth
import FileHopZ.Library.Merge
import FileHopZ.Library.Handlers
import FileHopZ.Errors
import FileHopZ.Utils.AsyncQueue
import FileHopZ.Utils.AsyncValue
import FileHopZ.Utils.QueueHistory
import FileHopZ.Utils.Cancellation
import FileHopZ.Utils.CryptoContext
import FileHopZ.Utils.KeyAgreement
import FileHopZ.Protohopz.Packet
import FileHopZ.Protohopz.ProtoHopZ
import FileHopZ.Protohopz.Transport
import FileHopZ.Protohopz.TransportSteps
import FileHopZ.Protohopz.DuplicateAcks
import FileHopZ.Protohopz.SenderWakeups
import FileHopZ.Protohopz.CongestionWindow
import FileHopZ.Protohopz.Effects
import FileHopZ.Protohopz.ProtoStream
import FileHopZ.Protohopz.StreamSteps
import FileHopZ.Protohopz.ReceiveChunks
import FileHopZ.Protohopz.Moves
import FileHopZ.Protohopz.Ordering
import FileHopZ.Protohopz.ChunksLoop
import FileHopZ.Protohopz.Session
import FileHopZ.Protohopz.Delivery
import FileHopZ.Protohopz.Acknowledged
import FileHopZ.Protohopz.Replay
import FileHopZ.Protohopz.Exchange
import FileHopZ.Protohopz.PayloadDomain
import FileHopZ.Protohopz.LazyStart
import FileHopZ.Protohopz.StreamError
import FileHopZ.FtpPacket
import FileHopZ.Utils.FileBuilder
import FileHopZ.Utils.Commit
import FileHopZ.Utils.Placement
import FileHopZ.Utils.RelativePath
import FileHopZ.Receiver.Parse
import FileHopZ.Receiver.Receiver
import FileHopZ.Receiver.Accounting
import FileHopZ.Receiver.Containment
import FileHopZ.Receiver.Staging
import FileHopZ.Receiver.Building
import FileHopZ.Receiver.Interleaving
import FileHopZ.Sender.PathHandler
import FileHopZ.Sender.Metadata
import FileHopZ.Sender.FileWalker
import FileHopZ.Sender.Source
import FileHopZ.Sender.Transfer
import FileHopZ.Receiver.Copying
import FileHopZ.RoundTrip
import FileHopZ.Protohopz.ChunkSize
import FileHopZ.Protohopz.Handshake
import FileHopZ.Protohopz.Plaintext
import FileHopZ.Protohopz.Flight
import FileHopZ.Protohopz.Numbering
import FileHopZ.Protohopz.Retransmission
import FileHopZ.Protohopz.Holes
import FileHopZ.Protohopz.StaleMemory
import FileHopZ.Protohopz.Draining
import FileHopZ.Protohopz.Closing
import FileHopZ.Protohopz.Announcing
import FileHopZ.Protohopz.Greeting
import FileHopZ.Protohopz.Agreement
import FileHopZ.Protohopz.Supplying
import FileHopZ.Protohopz.ColdStart
import FileHopZ.Protohopz.Calls
import FileHopZ.Protohopz.Retaining
import FileHopZ.Receiver.Unhindered
import FileHopZ.Receiver.Abandoning
import FileHopZ.Sender.Process
import FileHopZ.Dialogue.Dialogue
import FileHopZ.Dialogue.Sends
import FileHopZ.Dialogue.Receives
import FileHopZ.Dialogue.Channel
import FileHopZ.Dialogue.History
import FileHopZ.Dialogue.SendingSide
import FileHopZ.Dialogue.ReceivingSide
import FileHopZ.Dialogue.Transfer
import FileHopZ.Dialogue.AllOrNothing
import FileHopZ.Dialogue.Closes
import FileHopZ.Dialogue.Closed
import FileHopZ.Dialogue.Succeeded
