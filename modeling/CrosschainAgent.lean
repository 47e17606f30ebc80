import CrosschainAgent.Library.Escrow
import CrosschainAgent.Library.Iteration
import CrosschainAgent.Library.Locks
import CrosschainAgent.Library.Prog
import CrosschainAgent.Library.Rounding
import CrosschainAgent.Library.Tokens
import CrosschainAgent.Contract.Bridge
import CrosschainAgent.Contract.Accepted
import CrosschainAgent.Contract.Solvency
import CrosschainAgent.Contract.Deposits
import CrosschainAgent.Contract.Payouts
import CrosschainAgent.Contract.Handover
import CrosschainAgent.Common.Strings
import CrosschainAgent.Common.Json
import CrosschainAgent.Common.General
import CrosschainAgent.Common.WebClient
import CrosschainAgent.Glue.Operations
import CrosschainAgent.Glue.Handle
import CrosschainAgent.Glue.Stores
import CrosschainAgent.System.World
import CrosschainAgent.System.Rendering
import CrosschainAgent.System.Books
import CrosschainAgent.System.Acts
import CrosschainAgent.System.Messages
import CrosschainAgent.System.Invariant
import CrosschainAgent.System.Steps
import CrosschainAgent.System.Handlers
import CrosschainAgent.System.Safety
import CrosschainAgent.System.Fidelity
import CrosschainAgent.System.Formats
import CrosschainAgent.Session.Calls
import CrosschainAgent.Session.Recovery
import CrosschainAgent.Session.Replay
import CrosschainAgent.Session.Effects
import CrosschainAgent.Session.StartEvent
import CrosschainAgent.Session.Filing
import CrosschainAgent.Session.Passes
import CrosschainAgent.Session.Rounds
import CrosschainAgent.Session.AckTimeouts
import CrosschainAgent.Session.Mutexes
import CrosschainAgent.Session.Threads
import CrosschainAgent.Glue.Manager
import CrosschainAgent.Session.Confirmations
import CrosschainAgent.Session.Verdicts
import CrosschainAgent.Session.Redelivery
import CrosschainAgent.Session.Stages
import CrosschainAgent.Session.Interleavings
import CrosschainAgent.Session.Provenance
import CrosschainAgent.Session.StartPasses
import CrosschainAgent.Session.Stability
import CrosschainAgent.System.QueryData
import CrosschainAgent.Glue.Period
import CrosschainAgent.Glue.Dispatch
import CrosschainAgent.Glue.SubmitResponse
import CrosschainAgent.Session.Submissions
import CrosschainAgent.Session.ConfirmPass
import CrosschainAgent.Common.Basen
import CrosschainAgent.Common.Transaction
import CrosschainAgent.Crypto.BigNum
import CrosschainAgent.Crypto.EccSm2
import CrosschainAgent.Crypto.Base58
import CrosschainAgent.Crypto.Base58Buffers
import CrosschainAgent.Crypto.Base58Bijection
import CrosschainAgent.Crypto.Base58Decoders
import CrosschainAgent.Crypto.PrivateKey
import CrosschainAgent.Crypto.Address
import CrosschainAgent.Crypto.KeyEncoding
import CrosschainAgent.Common.SafeParsing
import CrosschainAgent.Crypto.Aes
import CrosschainAgent.Crypto.Sm3
import CrosschainAgent.Database.Batches
import CrosschainAgent.Contract.Accounts
import CrosschainAgent.System.Accounts
import CrosschainAgent.System.Finality
import CrosschainAgent.Common.ReadWriteLock
import CrosschainAgent.Crypto.AddressCaches
import CrosschainAgent.System.Causes
import CrosschainAgent.Library.Possible
import CrosschainAgent.System.Continuations
import CrosschainAgent.System.Withheld
import CrosschainAgent.System.Settleable
import CrosschainAgent.Crypto.StoredKeys
import CrosschainAgent.Main.Configure
import CrosschainAgent.Main.EncryptedKeys
import CrosschainAgent.Main.Signing
import CrosschainAgent.Library.Budget
import CrosschainAgent.Library.Throttle
import CrosschainAgent.Main.RunLoop
import CrosschainAgent.Main.Subscriptions
import CrosschainAgent.Main.Watchdog
import CrosschainAgent.System.Spending
