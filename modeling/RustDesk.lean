import RustDesk.History
import RustDesk.Message
import RustDesk.ConnectionState
import RustDesk.ConnectionOptions
import RustDesk.ConnectionLogin
import RustDesk.ConnectionDispatch
import RustDesk.ConnectionLoop
import RustDesk.ConnectionFrame
import RustDesk.ConnectionSteps
import RustDesk.ConnectionTurns
import RustDesk.ConnectionInvariant
import RustDesk.Authentication
import RustDesk.PermissionBinding
import RustDesk.TerminalBinding
import RustDesk.ScopeConfinement
import RustDesk.SessionIdentity
import RustDesk.ServiceDelivery
import RustDesk.RemoteFiles
import RustDesk.LocalDeletion
import RustDesk.TransferJob
import RustDesk.ReadDrivers
import RustDesk.PartialCopy
import RustDesk.TransferWrite
import RustDesk.TransferProtocol
import RustDesk.ResumedTransfer
import RustDesk.ResumedEnds
import RustDesk.ResumedRuns
import RustDesk.BytesCodec
import RustDesk.ConnectionHandshake
import RustDesk.FramedStream
import RustDesk.PortForward
import RustDesk.PortForwardInvariant
import RustDesk.PortForwardRuns
import RustDesk.PortForwardTransparency
import RustDesk.Base64
import RustDesk.ClientVideo
import RustDesk.LoginLimit
import RustDesk.OsCredentialBackoff
import RustDesk.OptionScoping
import RustDesk.PermanentPassword
import RustDesk.PrivacyMode
import RustDesk.VideoFlow
import RustDesk.SessionNonces
import RustDesk.CertificatePolicy
import RustDesk.ReadCompletion
import RustDesk.SecuredStreams
import RustDesk.FrameChunks
import RustDesk.SealedOrder
import RustDesk.ClipboardFiles
import RustDesk.ClipboardRanges
import RustDesk.ClipboardReads
import RustDesk.DescriptorChecks
import RustDesk.FuseTree
import RustDesk.BinarySearch
import RustDesk.FileHandles
import RustDesk.SplitText
import RustDesk.UnixPath
import RustDesk.PathConfinement
import RustDesk.FileDescriptors
import RustDesk.PasteTask
import RustDesk.PasteConfinement
import RustDesk.StoreLoop
import RustDesk.Detiling
import RustDesk.DetilingAgreement
import RustDesk.DetilingBounds
import RustDesk.MapCache
import RustDesk.MapOwnership
import RustDesk.Delivery
import RustDesk.DeliveredFiles
import RustDesk.PartialDownloads
import RustDesk.Utf8Chunks
import RustDesk.FileListPdu
import RustDesk.CodecNegotiation
import RustDesk.Linearization
import RustDesk.ServiceSnapshot
import RustDesk.TrustedDevices
import RustDesk.PeerNames
import RustDesk.PeerFiles
import RustDesk.OutputBuffer
import RustDesk.TerminalService
import RustDesk.TerminalReplay
import RustDesk.TerminalClosing
import RustDesk.PasteDelivery
import RustDesk.ParamSets
import RustDesk.AnnexB
import RustDesk.MediaCodec
import RustDesk.VideoBackends
import RustDesk.PartialReads
import RustDesk.DecoderBridge
import RustDesk.SentPictures
import RustDesk.BridgeFraming
import RustDesk.ConfigStore
import RustDesk.PasswordSalt
import RustDesk.AddrMangle
import RustDesk.DuplicateRequests
import RustDesk.ClipboardManager
import RustDesk.RecorderFiles
import RustDesk.RecordUpload
import RustDesk.FileNumbers
import RustDesk.CaptureDisplays
import RustDesk.KeyInjection
import RustDesk.KeyRelease
import RustDesk.PressedModifiers
import RustDesk.TemporaryPassword
import RustDesk.OutputHistory
import RustDesk.CompressedPayloads
import RustDesk.HostPort
import RustDesk.VersionNumbers
import RustDesk.ProxyEndpoints
import RustDesk.LowerCase
import RustDesk.CustomServerName
import RustDesk.LayeredOptions
import RustDesk.StrategyOptions
import RustDesk.VideoQos
import RustDesk.Downloader
import RustDesk.SaltHandout
import RustDesk.SecureHandshake
import RustDesk.SharedWords
import RustDesk.FrameCounters
import RustDesk.FramesSeen
import RustDesk.KeyboardGrab
import RustDesk.MouseCursor
import RustDesk.FuseReads
import RustDesk.RegistrationTimer
import RustDesk.SharedPasswords
import RustDesk.DisplaySync
import RustDesk.TerminalHelper
import RustDesk.PortablePackage
import RustDesk.ClipboardSync
import RustDesk.ConnectionRounds
import RustDesk.PortableToken
import RustDesk.AudioBuffer
import RustDesk.ExpiringTable
import RustDesk.SwitchSides
import RustDesk.SoftRender
