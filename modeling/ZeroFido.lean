import ZeroFido.Foundations.CrashProgram
import ZeroFido.Foundations.Process
import ZeroFido.Foundations.Trace
import ZeroFido.Foundations.Run
import ZeroFido.Foundations.Insertion
import ZeroFido.Types
import ZeroFido.Cbor
import ZeroFido.Cbor.Primitives
import ZeroFido.Cbor.Skip
import ZeroFido.Cbor.Strictness
import ZeroFido.Cbor.Utf8
import ZeroFido.Storage.World
import ZeroFido.Storage.AtomicFile
import ZeroFido.Storage.CrashSafety
import ZeroFido.Crypto
import ZeroFido.Ctap.ParseShared
import ZeroFido.Pin.State
import ZeroFido.Pin.Protocol
import ZeroFido.Pin.StateStore
import ZeroFido.Pin.Sealed
import ZeroFido.Pin.History
import ZeroFido.Pin.Retry
import ZeroFido.Pin.Lifecycle
import ZeroFido.Pin.ClientPin
import ZeroFido.Pin.NewPin
import ZeroFido.Pin.RequireAuth
import ZeroFido.Pin.WrongGuess
import ZeroFido.Pin.Atomicity
import ZeroFido.Pin.Gate
import ZeroFido.Pin.Accounting
import ZeroFido.Pin.TokenUse
import ZeroFido.Pin.TokenIssue
import ZeroFido.Pin.Run
import ZeroFido.Nfc.Protocol
import ZeroFido.Nfc.Session
import ZeroFido.Nfc.Dispatch
import ZeroFido.Nfc.Engine
import ZeroFido.Nfc.Effects
import ZeroFido.Nfc.Step
import ZeroFido.Nfc.AutoAccept
import ZeroFido.Nfc.Cancellation
import ZeroFido.Nfc.LateResponse
import ZeroFido.Nfc.Blocks
import ZeroFido.Nfc.Paging
import ZeroFido.Nfc.Chaining
import ZeroFido.Nfc.BlockLayer
import ZeroFido.Nfc.Retransmission
import ZeroFido.Store.Record
import ZeroFido.Store.CounterFloor
import ZeroFido.Store.RecordFormat
import ZeroFido.Store.RecordFile
import ZeroFido.Store.RecordRoundTrip
import ZeroFido.Store.Rollback
import ZeroFido.Store.Footprint
import ZeroFido.Store.Index
import ZeroFido.Store.Bootstrap
import ZeroFido.Store.Startup
import ZeroFido.Store.Undisturbed
import ZeroFido.Ctap.Policy
import ZeroFido.Ctap.LookupOrder
import ZeroFido.Ctap.Authenticator
import ZeroFido.Ctap.GetAssertion
import ZeroFido.Ctap.MakeCredential
import ZeroFido.Ctap.Dispatch
import ZeroFido.Ctap.Interference
import ZeroFido.Ctap.ApprovedCredential
import ZeroFido.U2f.Apdu
import ZeroFido.Usb.Session
import ZeroFido.Usb.Worker
import ZeroFido.Usb.Requests
import ZeroFido.Usb.Step
import ZeroFido.Usb.Abort
import ZeroFido.Usb.LateOutput
import ZeroFido.Ctap.Continuation
import ZeroFido.Ctap.QueueExpiry
import ZeroFido.Ctap.CounterWindow
import ZeroFido.Ctap.InterruptedReset
import ZeroFido.Store.Recovery
import ZeroFido.Usb.Channels
import ZeroFido.Usb.Assembly
import ZeroFido.Usb.SessionRuns
import ZeroFido.Usb.Lock
import ZeroFido.Usb.Framing
import ZeroFido.Usb.OneInFlight
import ZeroFido.Ui.Approval
import ZeroFido.Ui.PromptOwnership
import ZeroFido.U2f.Persistence
import ZeroFido.U2f.Session
import ZeroFido.U2f.Adapter
import ZeroFido.U2f.CounterOrder
import ZeroFido.U2f.Presence
import ZeroFido.Foundations.Compaction
import ZeroFido.Store.Replacement
import ZeroFido.Ctap.Footprint
import ZeroFido.Ctap.AccountReplacement
import ZeroFido.Cbor.Items
import ZeroFido.Cbor.Chains
import ZeroFido.Ctap.MapFields
import ZeroFido.Ctap.ParseRequests
import ZeroFido.Ctap.MapOrder
import ZeroFido.Ctap.RequestLimits
import ZeroFido.RuntimeConfig
import ZeroFido.Nfc.TxChain
import ZeroFido.Nfc.RxChain
import ZeroFido.Foundations.Invariant
import ZeroFido.Storage.Contents
import ZeroFido.Pin.Invariant
import ZeroFido.Ctap.HmacSecret
import ZeroFido.Ctap.Response
import ZeroFido.Ctap.ResponseForm
import ZeroFido.Ctap.AssertionForm
import ZeroFido.Ctap.Members
import ZeroFido.Ctap.WellFormedRequests
import ZeroFido.Foundations.Der
import ZeroFido.Memory
import ZeroFido.Crypto.EcdsaDer
import ZeroFido.Attestation.Certificate
import ZeroFido.Attestation.ReadBack
import ZeroFido.Nfc.U2fRequests
import ZeroFido.U2f.KeyHandles
import ZeroFido.Storage.Tearing
import ZeroFido.Store.FailedRemoval
import ZeroFido.Store.StoredRecords
import ZeroFido.Ctap.StoredCredentials
import ZeroFido.Foundations.BlockHash
import ZeroFido.Foundations.Sha256
import ZeroFido.Crypto.Sha256
import ZeroFido.Crypto.Hmac
import ZeroFido.Crypto.Aes256
import ZeroFido.Crypto.Firmware
import ZeroFido.Storage.Working
import ZeroFido.Pin.Messages
import ZeroFido.Pin.Service
import ZeroFido.Pin.WorkingDevice
import ZeroFido.Pin.Conversation
import ZeroFido.Pin.Representation
import ZeroFido.Pin.ServiceTokens
import ZeroFido.Pin.ServiceRefinement
import ZeroFido.Store.SignCounts
import ZeroFido.Ctap.SignCounts
import ZeroFido.Ctap.CountedCommands
import ZeroFido.Ctap.CountedRegistration
import ZeroFido.Ctap.DeviceLife
import ZeroFido.Foundations.Schedule
import ZeroFido.Store.Reindexing
import ZeroFido.Store.FailedReplacement
import ZeroFido.Ctap.UntilRemoval
import ZeroFido.Ctap.FailedRegistration
import ZeroFido.Pin.Footprint
import ZeroFido.Settings.Capabilities
import ZeroFido.Settings.Lifecycle
import ZeroFido.Settings.Persistence
import ZeroFido.Settings.Transitions
import ZeroFido.Settings.Runs
