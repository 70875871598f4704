/-
# The RPC: messages, statuses, log

The parts of `app/grpc_api/service.py` that `Synthesize` is made of: the
messages of `tts.v1` a stream's events become, how an exception is classified
for the client and for the counters, and what is logged.

Numbers of a message are unbounded here; that protobuf refuses one that does not
fit its field is left to what comes from outside.  Of a log entry the metrics
are left out, and with them the clock.
-/

import TtsPool.Stream.Handle

namespace TtsPool

/-- The status codes `Synthesize` aborts with. -/
inductive StatusCode where
  | notFound
  | failedPrecondition
  | resourceExhausted
  | cancelled
  | invalidArgument
  | internal
deriving DecidableEq

/-- The counter of a status: `f"status_{status.name.lower()}"`. -/
def StatusCode.counter : StatusCode → String
  | .notFound => "status_not_found"
  | .failedPrecondition => "status_failed_precondition"
  | .resourceExhausted => "status_resource_exhausted"
  | .cancelled => "status_cancelled"
  | .invalidArgument => "status_invalid_argument"
  | .internal => "status_internal"

/-- `_status_for_error`. -/
def statusForError : EngineError → StatusCode × String
  | .unknownModel _ => (.notFound, "unknown_model")
  | .modelState _ code => (.failedPrecondition, code)
  | .requestAdmission _ code _ => (.resourceExhausted, code)
  | .synthesisCancelled _ => (.cancelled, "synthesis_cancelled")
  | .streamConsumerStalled _ => (.resourceExhausted, "stream_consumer_stalled")
  | .valueError _ => (.invalidArgument, "invalid_request")
  | .unprintable className _ _ =>
    if className = "ValueError" then (.invalidArgument, "invalid_request") else (.internal, "synthesis_failed")
  | .runtimeError _ | .other _ _ => (.internal, "synthesis_failed")

/-- `_public_error_detail`, of an exception with that text. -/
def publicErrorDetail (text code : String) : String :=
  if code = "synthesis_failed" then "TTS synthesis failed"
  else if text = "" then code
  else text

/-! ### Messages -/

/-- `AudioEncoding`. -/
inductive AudioEncoding where
  | unspecified
  | pcmS16le
deriving DecidableEq

/-- The message `Started`. -/
structure Started where
  responseId : String
  model : String
  sampleRateHz : ℤ
  channelCount : ℤ
  encoding : AudioEncoding
  schedulerQueueWaitMs : ℚ

/-- The message `AudioChunk`. -/
structure AudioChunk where
  sequenceNumber : ℤ
  firstSample : ℤ
  pcm : List UInt8

/-- The message `Completed`. -/
structure Completed where
  totalSampleCount : ℤ
  durationMs : ℤ
  chunkCount : ℤ
  metrics : Dict String (Option ℚ)
  metadata : Dict String MetadataValue

/-- The message `SynthesisEvent`; `none` is one without a payload. -/
inductive SynthesisEvent where
  | started (started : Started)
  | audioChunk (audioChunk : AudioChunk)
  | completed (completed : Completed)
  | none

/-- `_event_to_proto`. -/
def eventToProto : StreamEvent → SynthesisEvent
  | .started event => .started
    { responseId := event.responseId
      model := event.model
      sampleRateHz := event.sampleRateHz
      channelCount := event.channelCount
      encoding := .pcmS16le
      schedulerQueueWaitMs := event.schedulerQueueWaitMs }
  | .audio event => .audioChunk
    { sequenceNumber := event.sequenceNumber
      firstSample := event.firstSample
      pcm := event.pcm }
  | .completed event => .completed
    { totalSampleCount := event.totalSampleCount
      durationMs := event.durationMs
      chunkCount := event.chunkCount
      metrics := event.metrics
      metadata := event.metadata }

/-- The metrics `Synthesize` adds to a Completed event. -/
def withGrpcMetrics (event : StreamCompleted) (receivedAt : ℚ) (firstChunkWrittenAt : Option ℚ) (now : ℚ) :
    StreamCompleted :=
  { event with
    metrics := (event.metrics.set "grpc_stream_wall_ms" (some (max 0 ((now - receivedAt) * 1000)))).set
      "grpc_first_chunk_wall_ms" (firstChunkWrittenAt.map fun at' => max 0 ((at' - receivedAt) * 1000)) }

/-! ### How an RPC ends, and what it leaves behind -/

/-- The end of an RPC, as its client sees it: OK, an abort with the text and the
`tts-error-code`, an exception out of the handler, which gRPC reports as `UNKNOWN` with
its class and its text, or the client's own cancellation. -/
inductive RpcOutcome where
  | ok
  | aborted (status : StatusCode) (detail code : String)
  | raised (error : EngineError)
  | cancelled
deriving DecidableEq

/-- An entry `tts_pool.grpc_stream` of the log. -/
inductive RpcLog where
  | completed
  | failed (status : StatusCode) (code error : String)
  | cancelled (scope : String)
deriving DecidableEq

/-- `bool(metadata.get("native_streaming"))`. -/
def nativeStreaming (metadata : Dict String MetadataValue) : Bool :=
  match metadata.get? "native_streaming" with
  | none | some .null => false
  | some (.bool value) => value
  | some (.number value) => value ≠ 0
  | some (.text value) => value ≠ ""

/-- `log_release`, the terminal callback of a cancelled RPC. -/
def logRelease : TerminalCallback := .other 0

end TtsPool
