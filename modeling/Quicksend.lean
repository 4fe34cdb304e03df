import Quicksend.Lib.Transition
import Quicksend.Lib.Simulation
import Quicksend.Lib.Tally
import Quicksend.Lib.Inverse
import Quicksend.Lib.Runs
import Quicksend.Lib.Consecutive
import Quicksend.Lib.Openings
import Quicksend.Lib.Hex
import Quicksend.Lib.Utf16
import Quicksend.Lib.Utf8
import Quicksend.Lib.Base64
import Quicksend.Lib.Urlencoded
import Quicksend.Lib.Json
import Quicksend.Lib.Json.Quoting
import Quicksend.Lib.Search
import Quicksend.Bytes
import Quicksend.Filenames
import Quicksend.Base64url
import Quicksend.Crypto
import Quicksend.Cryptoutil
import Quicksend.PairingLink
import Quicksend.Wire
import Quicksend.SendFile
import Quicksend.SendFile.Steps
import Quicksend.SendFile.Wakeups
import Quicksend.SendFile.Emits
import Quicksend.SendFile.Stages
import Quicksend.SendFile.Nonces
import Quicksend.SendFile.Window
import Quicksend.Pake
import Quicksend.Pake.NoneLost
import Quicksend.Pake.Confirmed
import Quicksend.Receiver
import Quicksend.Receiver.Steps
import Quicksend.Receiver.Integrity
import Quicksend.Receiver.Callbacks
import Quicksend.Delivery
import Quicksend.Delivery.Stream
import Quicksend.Delivery.Progress
import Quicksend.Delivery.Delivered
import Quicksend.Delivery.Flow
import Quicksend.Delivery.Failures
import Quicksend.ReceiverTransfer
import Quicksend.ReceiverTransfer.Saved
import Quicksend.Proto
import Quicksend.Server.Session
import Quicksend.Server.Hub
import Quicksend.Server.Handler
import Quicksend.Server.Ownership
import Quicksend.Server.Accounting
import Quicksend.Server.Probing
import Quicksend.Server.Pipe
import Quicksend.Server.Aborted
import Quicksend.Server.Keepalive
import Quicksend.Server.Load
import Quicksend.Pairing
import Quicksend.Paired
import Quicksend.Paired.Steps
import Quicksend.Paired.Epochs
import Quicksend.Paired.Roles
import Quicksend.Paired.Resumable
import Quicksend.Server.Goroutines
import Quicksend.Server.Goroutines.Steps
import Quicksend.Server.Goroutines.Owners
import Quicksend.Server.Goroutines.Cap
import Quicksend.Server.Goroutines.Orphans
import Quicksend.Server.Goroutines.Addressees
import Quicksend.Server.Goroutines.Notices
import Quicksend.Server.Goroutines.Presence
import Quicksend.Server.Goroutines.Tokens
import Quicksend.PairedScreen
import Quicksend.PairedScreen.Steps
import Quicksend.PairedScreen.Handles
import Quicksend.PairedScreen.OneLive
import Quicksend.PairedScreen.Calls
import Quicksend.PairedScreen.InFlight
import Quicksend.PairedScreen.OneFile
import Quicksend.PairedScreen.Files
import Quicksend.PairedScreen.Folders
import Quicksend.PairedScreen.Receivers
import Quicksend.PairedScreen.Quiet
import Quicksend.TwoScreens
import Quicksend.TwoScreens.Transfers
import Quicksend.TwoScreens.Swaps
import Quicksend.Page
import Quicksend.Page.Steps
import Quicksend.Page.Flows
import Quicksend.Page.Attempts
import Quicksend.Page.Once
import Quicksend.Server.Goroutines.Tables
import Quicksend.Server.Frames
import Quicksend.Server.SizeLimit
import Quicksend.Server.Refused
import Quicksend.Server.Sweep
import Quicksend.Server.Reap
import Quicksend.Server.Goroutines.Rounds
import Quicksend.Server.Goroutines.Survival
import Quicksend.Server.Goroutines.Budget
import Quicksend.Server.Goroutines.Codes
import Quicksend.Server.Goroutines.Blind
import Quicksend.Texts
import Quicksend.Server.Texts
import Quicksend.Page.Texts
import Quicksend.Delivery.Announced
import Quicksend.Delivery.Wired
import Quicksend.Delivery.Finishes
import Quicksend.Delivery.Transcript
import Quicksend.Delivery.Sizes
import Quicksend.Lib.Handles
import Quicksend.Page.Handles
