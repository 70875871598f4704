/-
# One synthesis, from the runtime to the client

Everything that has to do with one RPC that was admitted: the worker `_run_job`
with the runtime's code under it, the handle between the two sides, and the
handler `Synthesize`, which reads the handle and sends.  Both are threads over
the handle; a task of theirs is one section under the handle's lock, one look at
its cancelled flag, one call of the model, or one stretch of code that touches
nothing shared.  What others do to the handle, shutdown, the executor and the
RPC's own done callback, comes in as calls, at any time: they cancel it, fail
it, and set its cancel callback.

What the model does is the program's parameter.  The clock, the client's
cancellation at an `await` or a `yield`, and a message that protobuf refuses come
from outside.  Left out are the executor's own lock and books (`Executor.Model`),
the `aclose` of the server's generator, and of two readings of an unchanged field the
second.
-/

import TtsPool.Executor.Model
import TtsPool.Stream.Calls
import TtsPool.Synthesis.Runtimes
import TtsPool.Synthesis.Service

namespace TtsPool

open Threads (Effect Config Action)

/-- What the threads of a synthesis share, with the variables of their frames
that outlive a task.  Ledgers of the run are `modelRaised`, the call of the model
that raised, `jobError`, the exception `_run_job` has caught, and `sent`. -/
structure SynthesisState where
  stream : StreamState
  backendStartedAt : ℚ := 0
  modelRaised : Option ModelCall := none
  jobError : Option EngineError := none
  receivedAt : ℚ := 0
  firstChunkWrittenAt : Option ℚ := none
  sent : List SynthesisEvent := []
  counters : List String := ["requests_total"]
  logs : List RpcLog := []
  outcome : Option RpcOutcome := none

/-- What `_run_job` leaves its `try` with: a result, an exception, or one that it
does not catch. -/
abbrev JobOutcome := Option (Except EngineError RuntimeStreamResult)

/-- One task of a thread. -/
inductive SynthesisTask where
  /-- A method of the handle, or a part of one. -/
  | handle (task : StreamTask)
  -- `_run_job`
  | runJob (queueWaitMs : ℚ)
  | checkDispatch
  | runBackend
  | release (outcome : JobOutcome)
  -- `synthesize_stream`
  | checkPrepared (sampleRateHz : ℤ)
  | checkGeneration (sampleRateHz : ℤ)
  | startedSink (sampleRateHz : ℤ)
  | encodeLatents (sampleRateHz : ℤ)
  | checkEncoded (sampleRateHz : ℤ)
  | generate (sampleRateHz : ℤ)
  | nextChunk (sampleRateHz : ℤ) (chunkCount totalSampleCount : ℕ) (chunks : List (List ℚ))
  | checkChunk (sampleRateHz : ℤ) (chunkCount totalSampleCount : ℕ) (samples : List ℚ) (chunks : List (List ℚ))
  | chunkSink (sampleRateHz : ℤ) (chunkCount totalSampleCount : ℕ) (samples : List ℚ) (chunks : List (List ℚ))
  -- `_emit_complete_result`
  | emitResult (result : EngineResult)
  | readFrames (emission : WaveEmission) (sequenceNumber firstSample : ℕ) (frames : List UInt8)
  | emitFrames (emission : WaveEmission) (sequenceNumber firstSample : ℕ) (pcm frames : List UInt8)
  -- `Synthesize`
  | readEvent
  /-- `event is None`. -/
  | returnEmpty
  | send (event : StreamEvent)
  | resume (event : StreamEvent)
  | clientCancelled
  | raiseCancelled
  | failRpc (error : EngineError)
  | classify (error : EngineError)
  | abort (status : StatusCode) (detail code : String)

/-- What callers from outside do to the handle. -/
def SynthesisTask.entry : SynthesisTask → Bool
  | .handle .cancel | .handle (.fail _) | .handle (.setCancelCallback _) => true
  | _ => false

/-- What comes from outside while a task runs: the clock, the seconds an
`emit_audio` has left, the client's cancellation, an exception of protobuf. -/
structure SynthesisInput where
  now : ℚ := 0
  remaining : ℚ := 0
  cancelled : Bool := false
  refused : Option LibraryError := none

/-- `isinstance(error, SynthesisCancelled)`. -/
def EngineError.isSynthesisCancelled : EngineError → Bool
  | .synthesisCancelled _ => true
  | _ => false

/-- `isinstance(error, StreamConsumerStalled)`. -/
def EngineError.isStreamConsumerStalled : EngineError → Bool
  | .streamConsumerStalled _ => true
  | _ => false

namespace SynthesisState

abbrev Step := Effect SynthesisState SynthesisTask

abbrev delivery (s : SynthesisState) : Delivery := s.stream.delivery

abbrev handle (s : SynthesisState) : SynthesisHandle := s.stream.delivery.handle

/-- One section under the handle's lock. -/
def perform (s : SynthesisState) (op : StreamOp) : SynthesisState := { s with stream := s.stream.perform op }

/-- Where a cancellation finds the synthesis. -/
def scope (s : SynthesisState) : String := if s.handle.dispatched then "active" else "queued"

/-- The counter of such a cancellation. -/
def scopeCounter (s : SynthesisState) : String :=
  if s.handle.dispatched then "active_cancellations" else "queued_cancellations"

def count (s : SynthesisState) (names : List String) : SynthesisState := { s with counters := s.counters ++ names }

def log (s : SynthesisState) (entries : List RpcLog) : SynthesisState := { s with logs := s.logs ++ entries }

/-- A method of the handle.  Its terminal callback `log_release` logs. -/
def runHandle (s : SynthesisState) (task : StreamTask) (remaining : ℚ) : Option Step :=
  (s.stream.run task remaining).map fun e =>
    { state :=
        { s with stream := e.state }.log
          (match task with
          | .runTerminalCallbacks (callback :: _) => if callback = logRelease then [.cancelled s.scope] else []
          | _ => [])
      next := e.next.map .handle
      spawned := e.spawned.map fun tasks => tasks.map .handle }

/-! ### The worker -/

/-- The worker marks its handle dispatched. -/
def runJob (s : SynthesisState) (queueWaitMs now : ℚ) : Step where
  state := { s.perform (.markDispatched queueWaitMs) with backendStartedAt := now }
  next := [.checkDispatch]

/-- A look at the cancelled flag, on the way to a task. -/
def unlessCancelled (s : SynthesisState) (message : String) (task : SynthesisTask) : Step where
  state := s
  next := if s.handle.cancelled then [.release (some (.error (.synthesisCancelled message)))] else [task]

/-- What comes of an exception, or of a value. -/
def proceed {α : Type} (s : SynthesisState) (value : Except EngineError α) (task : α → SynthesisTask) : Step where
  state := s
  next :=
    match value with
    | .error error => [.release (some (.error error))]
    | .ok value => [task value]

/-- A call of the server on its loop. -/
def callServer (s : SynthesisState) (call : ModelCall) (raises : Option LibraryError) (task : SynthesisTask) :
    Step :=
  match raises with
  | none => { state := s, next := [task] }
  | some error =>
    { state := { s with modelRaised := some call }
      next := [.release (error.throughLoop.map .error)] }

/-- `complete_fn`, and the call of the model that raises inside it. -/
def callComplete (s : SynthesisState) (raised : Option ModelCall) (result : Except EngineError EngineResult) :
    Step :=
  { s with modelRaised := raised }.proceed result .emitResult

/-- The runtime's own function is called. -/
def runBackend (s : SynthesisState) : Backend → Step
  | .nanovllm call => s.proceed call.prepareSynthesis .checkPrepared
  | .voxcpm2 call => s.callComplete call.modelRaised call.synthesize
  | .kokoro call => s.callComplete call.modelRaised call.synthesize
  | .completeOnly result => s.callComplete none result

/-- `emit_started`, on the way to a task. -/
def emitStarted (s : SynthesisState) (sampleRateHz channelCount : ℤ) (task : SynthesisTask) : Step where
  state := s.perform (.emitStarted sampleRateHz channelCount)
  next :=
    match s.handle.emitStarted sampleRateHz channelCount with
    | .ok _ => [task]
    | .error error => [.release (some (.error error))]

/-- One look at the buffer by `emit_audio`, which looks again or goes on. -/
def emitAudio (s : SynthesisState) (event : StreamAudioChunk) (remaining : ℚ) (again task : SynthesisTask) :
    Step where
  state := s.perform (.emitAudio event remaining)
  next :=
    match s.handle.emitAudio event remaining with
    | .ok (some _) => [task]
    | .ok none => [again]
    | .error error => [.release (some (.error error))]

/-- One pass of the loop over the chunks that `generate` yields, up to the look at
the flag; after the last the result.  `StopAsyncIteration` ends the loop whoever
raises it. -/
def nextChunk (s : SynthesisState) (call : NanoVLLMCall) (sampleRateHz : ℤ) (chunkCount totalSampleCount : ℕ) :
    List (List ℚ) → Step
  | samples :: chunks =>
    { state := s, next := [.checkChunk sampleRateHz chunkCount totalSampleCount samples chunks] }
  | [] =>
    let result := SynthesisTask.release (some (call.result sampleRateHz chunkCount totalSampleCount))
    match call.ending with
    | some (.stopAsyncIteration _) =>
      { state := { s with modelRaised := some .nextChunk }, next := [result] }
    | ending => s.callServer .nextChunk ending result

/-- `_emit_complete_result` begins. -/
def emitResult (s : SynthesisState) (result : EngineResult) : Step :=
  match openResult result s.handle.maxBufferBytes with
  | .error error => { state := s, next := [.release (some (.error error))] }
  | .ok (emission, frames) =>
    s.emitStarted emission.sampleRateHz emission.channelCount (.readFrames emission 0 0 frames)

/-- `readframes`, and the result where there are none left. -/
def readFrames (s : SynthesisState) (emission : WaveEmission) (sequenceNumber firstSample : ℕ)
    (frames : List UInt8) : Step where
  state := s
  next :=
    let wanted := emission.framesPerChunk * emission.frameBytes
    let pcm := frames.take wanted
    if pcm = [] then [.release (some (emission.finish sequenceNumber firstSample))]
    else [.emitFrames emission sequenceNumber firstSample pcm (frames.drop wanted)]

/-- The worker leaves the `try` of `_run_job`, and fails or completes its handle. -/
def release (s : SynthesisState) (outcome : JobOutcome) (now : ℚ) : Step :=
  match outcome with
  | none => { state := s }
  | some (.error error) => { state := { s with jobError := some error }, next := [.handle (.fail error)] }
  | some (.ok result) =>
    { state := s
      next := [.handle (.complete result (ExecutorState.jobMetrics s.handle result s.backendStartedAt now))] }

/-! ### The handler -/

/-- `await handle.read_event_async()`. -/
def readEvent (s : SynthesisState) (input : SynthesisInput) : Option Step :=
  if input.cancelled then some { state := s, next := [.clientCancelled] }
  else if s.handle.Readable then
    some
      { state := s.perform .read
        next :=
          match s.handle.popEvent.2 with
          | .ok none => [.returnEmpty]
          | .ok (some (.completed event)) =>
            [.send (.completed (withGrpcMetrics event s.receivedAt s.firstChunkWrittenAt input.now))]
          | .ok (some event) => [.send event]
          | .error error => [.failRpc error.throughCoroutine] }
  else none

/-- The event is made a message and yielded. -/
def send (s : SynthesisState) (event : StreamEvent) (refused : Option LibraryError) : Step :=
  match refused with
  | some error => { state := s, next := [.failRpc error.toEngineError] }
  | none => { state := { s with sent := s.sent ++ [eventToProto event] }, next := [.resume event] }

/-- What follows the `yield`.  A client that cancels while the message is written ends
the task of the RPC outside the generator, which is closed where it stands: of its
clauses none is for `GeneratorExit`. -/
def resume (s : SynthesisState) (event : StreamEvent) (input : SynthesisInput) : Step :=
  if input.cancelled then { state := { s with outcome := some .cancelled } }
  else
    match event with
    | .started _ => { state := s, next := [.readEvent] }
    | .audio _ =>
      { state := { s with firstChunkWrittenAt := s.firstChunkWrittenAt <|> some input.now }
        next := [.readEvent] }
    | .completed event =>
      { state :=
          { (s.count
              ["status_ok",
                if nativeStreaming event.metadata then "native_streaming_completed"
                else "complete_runtime_completed"]).log [.completed] with
            outcome := some .ok } }

/-- `except asyncio.CancelledError`. -/
def clientCancelled (s : SynthesisState) : Step where
  state := s.count ["status_cancelled", s.scopeCounter]
  next := [.handle .cancel, .handle (.addTerminalCallback logRelease), .raiseCancelled]

/-- `except Exception`, after the handle is cancelled.  Its `str` of the exception, for
the log and for the client, may raise, and then so does the handler. -/
def classify (s : SynthesisState) (error : EngineError) : Step :=
  let (status, code) := statusForError error
  let counted := s.count ([status.counter] ++ (if error.isSynthesisCancelled then [s.scopeCounter] else []) ++
    (if error.isStreamConsumerStalled then ["stalled_consumers"] else []))
  match error.str with
  | .error raised => { state := { counted with outcome := some (.raised raised) } }
  | .ok text =>
    { state := counted.log (if error.isSynthesisCancelled then [] else [.failed status code text])
      next := (if error.isSynthesisCancelled then [.handle (.addTerminalCallback logRelease)] else []) ++
        [.abort status (publicErrorDetail text code) code] }

/-- One task, on an input from outside; `none` when it has to wait. -/
def run (backend : Backend) (s : SynthesisState) (task : SynthesisTask) (input : SynthesisInput) : Option Step :=
  match task with
  | .handle task => s.runHandle task input.remaining
  | .runJob queueWaitMs => some (s.runJob queueWaitMs input.now)
  | .checkDispatch =>
    some (s.unlessCancelled "synthesis was cancelled before runtime dispatch" .runBackend)
  | .runBackend => some (s.runBackend backend)
  | .release outcome => some (s.release outcome input.now)
  | .checkPrepared sampleRateHz =>
    some (s.unlessCancelled "synthesis was cancelled before reference encoding" (.checkGeneration sampleRateHz))
  | .checkGeneration sampleRateHz =>
    some (s.unlessCancelled "synthesis was cancelled before generation" (.startedSink sampleRateHz))
  | .startedSink sampleRateHz => some (s.emitStarted sampleRateHz 1 (.encodeLatents sampleRateHz))
  | .encodeLatents sampleRateHz =>
    backend.streamFn.map fun call =>
      s.callServer .encodeLatents (if call.referenceWav then call.encodeLatents else none)
        (.checkEncoded sampleRateHz)
  | .checkEncoded sampleRateHz =>
    some (s.unlessCancelled "synthesis was cancelled after reference encoding" (.generate sampleRateHz))
  | .generate sampleRateHz =>
    backend.streamFn.map fun call =>
      s.callServer .generate call.generate (.nextChunk sampleRateHz 0 0 call.chunks)
  | .nextChunk sampleRateHz chunkCount totalSampleCount chunks =>
    backend.streamFn.map fun call => s.nextChunk call sampleRateHz chunkCount totalSampleCount chunks
  | .checkChunk sampleRateHz chunkCount totalSampleCount samples chunks =>
    some (s.unlessCancelled "synthesis was cancelled during generation"
      (.chunkSink sampleRateHz chunkCount totalSampleCount samples chunks))
  | .chunkSink sampleRateHz chunkCount totalSampleCount samples chunks =>
    some (s.emitAudio ⟨chunkCount, totalSampleCount, pcmBytes samples⟩ input.remaining
      (.chunkSink sampleRateHz chunkCount totalSampleCount samples chunks)
      (.nextChunk sampleRateHz (chunkCount + 1) (totalSampleCount + samples.length) chunks))
  | .emitResult result => some (s.emitResult result)
  | .readFrames emission sequenceNumber firstSample frames =>
    some (s.readFrames emission sequenceNumber firstSample frames)
  | .emitFrames emission sequenceNumber firstSample pcm frames =>
    some (s.emitAudio ⟨sequenceNumber, firstSample, pcm⟩ input.remaining
      (.emitFrames emission sequenceNumber firstSample pcm frames)
      (.readFrames emission (sequenceNumber + 1) (firstSample + pcm.length / emission.frameBytes) frames))
  | .readEvent => s.readEvent input
  | .returnEmpty => some { state := { s with outcome := some .ok } }
  | .send event => some (s.send event input.refused)
  | .resume event => some (s.resume event input)
  | .clientCancelled => some s.clientCancelled
  | .raiseCancelled => some { state := { s with outcome := some .cancelled } }
  | .failRpc error => some { state := s, next := [.handle .cancel, .classify error] }
  | .classify error => some (s.classify error)
  | .abort status detail code =>
    some { state := { s with outcome := some (if input.cancelled then .cancelled else .aborted status detail code) } }

end SynthesisState

/-- The threads of one synthesis. -/
def synthesisProgram (backend : Backend) : Threads.Program SynthesisState SynthesisTask SynthesisInput where
  run := SynthesisState.run backend
  entry := SynthesisTask.entry

/-- The request is admitted: its job waits for a worker, its handler reads. -/
def SynthesisState.start (handle : SynthesisHandle) (queueWaitMs receivedAt : ℚ) :
    Config SynthesisState SynthesisTask where
  state := { stream := { delivery := { handle := handle } }, receivedAt := receivedAt }
  threads := [[.runJob queueWaitMs], [.readEvent]]

end TtsPool
