import SelectiveRepeat.Library.Bytes
import SelectiveRepeat.Library.Crc
import SelectiveRepeat.Library.Circle
import SelectiveRepeat.Library.Reassembly
import SelectiveRepeat.Library.Runs
import SelectiveRepeat.Library.LinkedList
import SelectiveRepeat.Library.Files
import SelectiveRepeat.Packet
import SelectiveRepeat.PacketChecks
import SelectiveRepeat.PacketRoundTrip
import SelectiveRepeat.PacketEncode
import SelectiveRepeat.PacketCorruption
import SelectiveRepeat.Queue
import SelectiveRepeat.QueueOrder
import SelectiveRepeat.QueueNodes
import SelectiveRepeat.QueueRefinement
import SelectiveRepeat.QueueRuns
import SelectiveRepeat.QueueResources
import SelectiveRepeat.System
import SelectiveRepeat.Receiver
import SelectiveRepeat.Sender
import SelectiveRepeat.Delivery
import SelectiveRepeat.Control
import SelectiveRepeat.ReceiverWindow
import SelectiveRepeat.ReceiverRefinement
import SelectiveRepeat.ReceiverRuns
import SelectiveRepeat.ReceiverEnd
import SelectiveRepeat.Truncation
import SelectiveRepeat.ReceiverFeed
import SelectiveRepeat.ReceiverAdvance
import SelectiveRepeat.ReceiverAnswers
import SelectiveRepeat.ReceiverBuffer
import SelectiveRepeat.ReceiverOrder
import SelectiveRepeat.SenderWindow
import SelectiveRepeat.SenderInvariant
import SelectiveRepeat.SenderAcks
import SelectiveRepeat.SenderTimeout
import SelectiveRepeat.ReceiverControl
import SelectiveRepeat.ReceiverTraffic
import SelectiveRepeat.Network
import SelectiveRepeat.JointInvariant
import SelectiveRepeat.JointSafety
import SelectiveRepeat.FlowControl
import SelectiveRepeat.Progress
import SelectiveRepeat.Record
import SelectiveRepeat.RecordFile
import SelectiveRepeat.RecordRecovery
import SelectiveRepeat.MinQueueRuns
import SelectiveRepeat.LinkSimTiming
import SelectiveRepeat.LinkedTransfer
import SelectiveRepeat.Completion
import SelectiveRepeat.CorrectionCodec
import SelectiveRepeat.ChannelRefinement
import SelectiveRepeat.Damage
import SelectiveRepeat.Pacing
