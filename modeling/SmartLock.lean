import SmartLock.Main
import SmartLock.Proofs.Client.Reports
import SmartLock.Proofs.Link.Stream
import SmartLock.Proofs.Server.Commands
import SmartLock.Proofs.Server.SessionKeys
import SmartLock.Proofs.Link.NonceUse
import SmartLock.Proofs.Client.Effects
import SmartLock.Proofs.Client.Activation
import SmartLock.Proofs.Client.Encryptions
import SmartLock.Proofs.Client.LoginSteps
import SmartLock.Proofs.Server.LoginSteps
import SmartLock.Proofs.Loopback.Login
import SmartLock.Proofs.Link.Counters
import SmartLock.Proofs.Server.Lockout
import SmartLock.Proofs.Server.Entrances
import SmartLock.Proofs.Server.Isolation
import SmartLock.Proofs.Server.Registration
import SmartLock.Proofs.Server.WaitingLogins
import SmartLock.Proofs.Link.FailedSends
import SmartLock.Proofs.Loopback.FailedSends
import SmartLock.Proofs.Client.Talking
import SmartLock.Proofs.Link.Deliveries
import SmartLock.Proofs.Text.Utf8
import SmartLock.Proofs.Loopback.Serving
import SmartLock.Proofs.Loopback.Conversations
import SmartLock.Proofs.Loopback.Commands
import SmartLock.Proofs.Link.FragmentRuns
import SmartLock.Proofs.PlainMessages
import SmartLock.Proofs.Client.LoginOs2
import SmartLock.Proofs.Server.KeyExchange
import SmartLock.Proofs.Link.Interleaving
import SmartLock.Proofs.Server.Clock
import SmartLock.Proofs.Server.Refusals
import SmartLock.Proofs.Server.Numbers
import SmartLock.Proofs.Server.Timeouts
import SmartLock.Proofs.Server.Slots
import SmartLock.Proofs.Client.HandshakeStart
import SmartLock.Proofs.Client.Handshakes
import SmartLock.Proofs.Client.Readiness
import SmartLock.Proofs.Server.Broadcasts
import SmartLock.Proofs.Server.Failures
import SmartLock.Proofs.KeyLoading
import SmartLock.Proofs.Link.Fragmentation
import SmartLock.Proofs.HistoryRecords
import SmartLock.Proofs.HistoryReading
import SmartLock.Proofs.CommandTags
import SmartLock.Proofs.Text.Base64
import SmartLock.Proofs.Text.Cuts
import SmartLock.Proofs.Text.Hex
import SmartLock.Proofs.Discovery.Advertisements
import SmartLock.Proofs.Discovery.DeviceLists
import SmartLock.Proofs.Mechanism
import SmartLock.Proofs.SettingsFile
import SmartLock.Proofs.Captures
import SmartLock.Proofs.Bounds.Server
