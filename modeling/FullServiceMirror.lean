import FullServiceMirror.Rust.HashMap
import FullServiceMirror.Rust.Slice
import FullServiceMirror.Transition
import FullServiceMirror.Sampling
import FullServiceMirror.Rust.Sync
import FullServiceMirror.Lifecycle
import FullServiceMirror.Rsa
import FullServiceMirror.Sha256
import FullServiceMirror.Utf16
import FullServiceMirror.Json.Document
import FullServiceMirror.Json.Extension
import FullServiceMirror.Api
import FullServiceMirror.Public.Query
import FullServiceMirror.Public.Refinement
import FullServiceMirror.Public.Calls
import FullServiceMirror.Public.MirrorService
import FullServiceMirror.Public.PollOrder
import FullServiceMirror.Public.Threads
import FullServiceMirror.Public.Waiting
import FullServiceMirror.Public.WaitInvariant
import FullServiceMirror.Public.Linearization
import FullServiceMirror.Public.Handlers
import FullServiceMirror.Public.Utils
import FullServiceMirror.Public.X509
import FullServiceMirror.Private.Crypto
import FullServiceMirror.Private.Requests
import FullServiceMirror.Private.PollingLoop
import FullServiceMirror.GenerateRsaKeypair
import FullServiceMirror.Client.ExampleClient
import FullServiceMirror.Client.Script
import FullServiceMirror.System.Step
import FullServiceMirror.System.Iteration
import FullServiceMirror.System.Direct
import FullServiceMirror.System.Invariant
import FullServiceMirror.Properties.CodecRoundTrip
import FullServiceMirror.Properties.MethodAllowlist
import FullServiceMirror.Properties.ResponseRetention
import FullServiceMirror.Properties.Correlation
import FullServiceMirror.Properties.Execution
import FullServiceMirror.Properties.Vetting
import FullServiceMirror.Properties.IdReuse
import FullServiceMirror.Properties.NoStranding
import FullServiceMirror.Properties.TamperEvidence
import FullServiceMirror.Properties.Rejections
import FullServiceMirror.Properties.Timeouts
import FullServiceMirror.Properties.RequestFormat
import FullServiceMirror.Properties.BlockLanguage
import FullServiceMirror.Properties.CertificateChain
import FullServiceMirror.Properties.DeadlockFreedom
import FullServiceMirror.Properties.Wakeups
import FullServiceMirror.Properties.Progress
import FullServiceMirror.Properties.LoopRuns
import FullServiceMirror.Properties.Linearizability
import FullServiceMirror.Properties.ClientSession
import FullServiceMirror.Properties.RequestIntegrity
import FullServiceMirror.Properties.OtherCiphertexts
import FullServiceMirror.Properties.IdDistribution
import FullServiceMirror.Properties.Transparency
import FullServiceMirror.Properties.KeyPair
