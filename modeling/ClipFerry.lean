import ClipFerry.VirtualTree.Validator
import ClipFerry.Protocol.ReceivedManifest
import ClipFerry.VirtualTree.DosDevice
import ClipFerry.Foundation.Position
import ClipFerry.Foundation.WordSum
import ClipFerry.Foundation.Volume
import ClipFerry.Foundation.Transition
import ClipFerry.Server.Coverage
import ClipFerry.Server.Requests
import ClipFerry.Server.World
import ClipFerry.Server.Effect
import ClipFerry.Server.LifeCycle
import ClipFerry.Server.ServerLock
import ClipFerry.Server.Capacity
import ClipFerry.Server.NonceTable
import ClipFerry.Server.CallTrace
import ClipFerry.Server.ReadPath
import ClipFerry.Server.Authorization
import ClipFerry.Server.BeginRetry
import ClipFerry.Server.ControlLog
import ClipFerry.Server.Retries
import ClipFerry.Client.Registry
import ClipFerry.Client.Credentials
import ClipFerry.Client.TransferGroup
import ClipFerry.Client.ResumeLaw
import ClipFerry.Server.Dispatch
import ClipFerry.Client.Command
import ClipFerry.Client.Connection
import ClipFerry.Client.CommandConnection
import ClipFerry.Client.ResponseLaw
import ClipFerry.Client.Delivery
import ClipFerry.Client.Replies
import ClipFerry.Client.Integrity
import ClipFerry.Client.RoundTrip
import ClipFerry.Local.StableFile
import ClipFerry.Local.Offer
import ClipFerry.Local.StartedOffer
import ClipFerry.Product.Session
import ClipFerry.Product.Publish
import ClipFerry.Product.TotalSize
import ClipFerry.Stream.Cursor
import ClipFerry.Client.LocalProgress
import ClipFerry.Client.Finished
import ClipFerry.Product.Progress
import ClipFerry.Product.Completion
import ClipFerry.Product.Control
import ClipFerry.Product.PasteSystem
import ClipFerry.Product.PausedPaste
import ClipFerry.Client.FaultyPeer
import ClipFerry.Runtime.SecureFetch
import ClipFerry.Runtime.ReceivedLength
import ClipFerry.Client.Relay
import ClipFerry.Client.ControlOrder
import ClipFerry.Client.EndingControl
import ClipFerry.Client.CompletionLaw
import ClipFerry.Client.CancelLaw
import ClipFerry.Client.GroupControl
import ClipFerry.Client.UiCalls
import ClipFerry.Client.UiLaw
import ClipFerry.Device.WriteNewAtomic
import ClipFerry.Device.Crew
import ClipFerry.Device.ReadBounded
import ClipFerry.Device.Identity
import ClipFerry.Device.IdentityCalls
import ClipFerry.Device.IdentityLaw
import ClipFerry.Device.Fingerprint
import ClipFerry.Device.TrustRecord
import ClipFerry.Device.DeviceStore
import ClipFerry.Device.TrustMap
import ClipFerry.Device.TrustRefinement
import ClipFerry.Device.TrustCalls
import ClipFerry.Device.TrustCap
import ClipFerry.Pairing.Hello
import ClipFerry.Pairing.Session
import ClipFerry.Pairing.PairingLaw
import ClipFerry.Pairing.Authentication
import ClipFerry.Foundation.Tally
import ClipFerry.Server.Ledger
import ClipFerry.Server.SentBytes
import ClipFerry.Product.SenderProgress
import ClipFerry.Product.SenderLaw
import ClipFerry.Product.SenderReport
import ClipFerry.Settings.AddressText
import ClipFerry.Settings.SettingsText
import ClipFerry.Settings.SettingsFormat
import ClipFerry.Settings.SettingsFile
import ClipFerry.Settings.SettingsReplacement
import ClipFerry.Settings.Reconcile
import ClipFerry.Settings.ReconcileLaw
import ClipFerry.Foundation.ChunkReader
import ClipFerry.Protocol.FrameStream
import ClipFerry.Server.CoverageLaw
import ClipFerry.Client.WireAgreement
import ClipFerry.Client.CommandRecovering
import ClipFerry.Client.RecoveryLaw
import ClipFerry.Foundation.Flag
import ClipFerry.Tray.PairingRuntime
import ClipFerry.Tray.BusyLaw
import ClipFerry.Local.ReadCall
import ClipFerry.Local.SourceLaw
import ClipFerry.Local.OfferLife
import ClipFerry.DataObject.FileDescriptor
import ClipFerry.DataObject.ObjectLaw
import ClipFerry.Capture.TreeCapture
import ClipFerry.Foundation.LinkWalk
import ClipFerry.Capture.CaptureLaw
import ClipFerry.Discovery.Packet
import ClipFerry.Discovery.PacketCodec
import ClipFerry.Discovery.DiscoveryLoop
import ClipFerry.Discovery.DiscoveryLaw
import ClipFerry.Foundation.PrefixCode
import ClipFerry.Pairing.HelloCodec
import ClipFerry.Device.TrustOutcome
import ClipFerry.Pairing.TranscriptLaw
import ClipFerry.Pairing.Confirm
import ClipFerry.Tray.NativePairing
import ClipFerry.Device.StoredLabel
import ClipFerry.Discovery.VisibleLabel
import ClipFerry.Tray.LabelLaw
import ClipFerry.Loopback.TransferControl
import ClipFerry.Loopback.Header
import ClipFerry.Loopback.Server
import ClipFerry.Loopback.WorkerStep
import ClipFerry.Loopback.Answers
import ClipFerry.Loopback.RangeSource
import ClipFerry.Loopback.RangeLaw
import ClipFerry.Foundation.Crowd
import ClipFerry.Loopback.MetricsLaw
import ClipFerry.Loopback.PeakLaw
import ClipFerry.Foundation.Monitor
import ClipFerry.Loopback.WaitLaw
import ClipFerry.Loopback.CancelLaw
import ClipFerry.Foundation.Mailbox
import ClipFerry.Product.Announcement
import ClipFerry.Product.OfferSystem
import ClipFerry.Product.OfferLaw
import ClipFerry.Product.OfferRetry
import ClipFerry.Product.WorkerLaw
import ClipFerry.Server.SecureConnection
import ClipFerry.Server.CallOwner
import ClipFerry.Server.ListenerLaw
import ClipFerry.Capture.ClipboardFiles
import ClipFerry.Local.ServedSource
import ClipFerry.Product.RemoteLease
import ClipFerry.Protocol.OfferSources
import ClipFerry.Product.EndToEnd
import ClipFerry.Capture.ClipboardLaw
import ClipFerry.Product.Provenance
import ClipFerry.Runtime.FileCapture
import ClipFerry.Runtime.FileCaptureLaw
import ClipFerry.Tray.TransferWindow
import ClipFerry.Tray.TransferWindowLaw
import ClipFerry.Tray.AskedCommands
import ClipFerry.Tray.ShownTransfer
