import TtsPool.Support.Dict
import TtsPool.Support.Entries
import TtsPool.Common
import TtsPool.Fair.Queue
import TtsPool.Fair.Invariant
import TtsPool.Fair.Conservation
import TtsPool.Fair.Account
import TtsPool.Fair.Charges
import TtsPool.Fair.Bypass
import TtsPool.Fair.Entry
import TtsPool.Fair.Share
import TtsPool.Fair.Rotation
import TtsPool.Executor.Calls
import TtsPool.Executor.Dispatch
import TtsPool.Executor.Cancelled
import TtsPool.Executor.Observed
import TtsPool.Stream.Calls
import TtsPool.Stream.Buffer
import TtsPool.Stream.Callbacks
import TtsPool.Stream.Bridge
import TtsPool.Router.Unload
import TtsPool.Router.Lifecycle
import TtsPool.Router.Runtimes
import TtsPool.Synthesis.Protocol
import TtsPool.Router.Buffers
import TtsPool.Synthesis.Cutting
import TtsPool.Support.Pieces
import TtsPool.Synthesis.Lossless
import TtsPool.Synthesis.Exceptions
import TtsPool.Synthesis.Outcomes
import TtsPool.Config.Sharing
import TtsPool.Support.Checks
import TtsPool.Config.Validation
import TtsPool.Reference.Clipping
import TtsPool.Support.Fairness
import TtsPool.Executor.Rest
import TtsPool.Executor.Service
import TtsPool.Support.Component
import TtsPool.Router.Alone
import TtsPool.Router.Rest
import TtsPool.Support.LittleEndian
import TtsPool.Wave.Tail
import TtsPool.Wave.Saving
