/-
# The executor of a loaded model

`LoadedModelExecutor` of `app/engine/scheduler.py`, with the handles it serves.
Four kinds of thread come together here: callers of `enqueue_stream`,
`snapshot` and `begin_shutdown`; callers of a handle's methods; the dispatcher
`_run_loop`; and a worker `_run_job` for every job that holds a slot.  An
`ExecutorTask` is one section under a lock of one of these, or one stretch of
code outside that the source calls without a lock: the start of a thread, the
call of the backend.

`_cond` is held over several tasks in one place only.  `enqueue_stream` sets
the cancel callback while holding it, and when the handle is already cancelled
the callback runs there and then; `locked` keeps everyone else out meanwhile.
The dispatcher waits on `_cond` until it is notified.

Code outside does as it likes: a thread may fail to start, the backend may emit
events, return a result or raise.  The clock's readings come from outside too,
and nothing is promised about their order.  Beside the state stand the ledgers
`accepted`, `rejected` and `finished`, the jobs and handles `enqueue_stream`
decided on and the handle of every call of `_finish`, and `streamsFinished`, the
handle of every call of the router's `_stream_finished`: out of a terminal
callback, or by the caller whose enqueue raised.

A backend that returns, returns a result, as its type says; so the worker never
finds neither a result nor an error.  What a backend raises is an `Exception`:
`_run_job` catches nothing else, so that asyncio's `CancelledError`, out of a
cancelled future, would end the worker with its handle left open.
-/

import TtsPool.Stream.Handle
import TtsPool.Support.Threads
import Mathlib.Logic.Function.Basic

namespace TtsPool

open Threads (Effect)

/-- `LoadedModelExecutor`; `streaming` says that a `stream_fn` was given. -/
structure LoadedModelExecutor where
  modelName : String
  streaming : Bool
  configuredTargetInflight : ℕ
  effectiveTargetInflight : ℕ
  pendingQueue : FairPendingQueue
  acceptingNewRequests : Bool := true
  stopRequested : Bool := false
  runtimeInflight : ℕ := 0
  activeStreamHandles : Dict ℕ HandleId := Dict.empty

/-- The constructor, with its lower bounds on the targets. -/
def LoadedModelExecutor.new (modelName : String) (streaming : Bool) (configuredTargetInflight : ℤ)
    (fairnessSettings : FairnessSettings) (runtimeCapability : ℤ) : LoadedModelExecutor :=
  let configured := (max 1 configuredTargetInflight).toNat
  { modelName := modelName
    streaming := streaming
    configuredTargetInflight := configured
    effectiveTargetInflight := min configured (max 1 runtimeCapability).toNat
    pendingQueue := .init modelName fairnessSettings }

/-- `ExecutorSnapshot`. -/
structure ExecutorSnapshot where
  queueDepth : ℤ
  runtimeInflight : ℕ
  configuredTargetInflight : ℕ
  effectiveTargetInflight : ℕ
  acceptingNewRequests : Bool
  fairnessKeys : List FairnessKeySnapshot := []
  fairnessRejectedPerKeyLimit : ℕ := 0
  fairnessRejectedExecutorLimit : ℕ := 0

/-- The dispatcher at `_cond.wait`, or not. -/
inductive Dispatcher where
  | running
  | waiting
  | notified
deriving DecidableEq

/-- What the threads around one executor share. -/
structure ExecutorState where
  executor : LoadedModelExecutor
  locked : Bool := false
  dispatcher : Dispatcher := .running
  handles : HandleId → SynthesisHandle
  nextHandle : HandleId := 0
  accepted : List SchedulerJob := []
  rejected : List HandleId := []
  finished : List HandleId := []
  streamsFinished : List HandleId := []

/-- The arguments of a handle's constructor, and the callbacks its caller adds
before it is enqueued. -/
structure HandleSpec where
  responseId : String
  modelName : String
  maxBufferChunks : ℤ
  maxBufferBytes : ℤ
  stalledConsumerTimeoutS : ℚ
  terminalCallbacks : List TerminalCallback := []

/-- The handle it constructs. -/
def HandleSpec.handle (spec : HandleSpec) (createdAt : ℚ) : SynthesisHandle :=
  { SynthesisHandle.new spec.responseId spec.modelName createdAt spec.maxBufferChunks spec.maxBufferBytes
      spec.stalledConsumerTimeoutS with
    terminalCallbacks := spec.terminalCallbacks }

/-- One task of a thread. -/
inductive ExecutorTask where
  /-- A caller makes a handle of its own and turns to `enqueue_stream`. -/
  | openStream (request : ResponseRequest) (spec : HandleSpec)
  | enqueueStream (request : ResponseRequest) (handle : HandleId)
  | setCancelCallback (job : SchedulerJob)
  | leaveEnqueue
  /-- The call has ended with an exception. -/
  | raised (handle : HandleId) (error : EngineError)
  | snapshot
  | beginShutdown
  | cancel (handle : HandleId)
  | addTerminalCallback (handle : HandleId) (callback : TerminalCallback)
  | readEvent (handle : HandleId)
  /-- `_cancel_stream_job`, by a thread that holds `_cond` already or not. -/
  | cancelStreamJob (job : SchedulerJob) (holding : Bool)
  | finish (handle : HandleId) (event : Option StreamEvent) (error : Option EngineError)
  | runTerminalCallbacks (handle : HandleId) (callbacks : List TerminalCallback)
  | runLoop
  | parked
  | startWorker (job : SchedulerJob) (dequeuedAt : ℚ)
  | abandonJob (job : SchedulerJob) (error : EngineError)
  | runJob (job : SchedulerJob) (dequeuedAt : ℚ)
  | checkCancelled (job : SchedulerJob) (backendStartedAt : ℚ)
  | backend (job : SchedulerJob) (backendStartedAt : ℚ)
  /-- `_emit_complete_result`, which emits, returns or raises like a backend. -/
  | emitCompleteResult (job : SchedulerJob) (backendStartedAt : ℚ)
  | release (job : SchedulerJob) (backendStartedAt backendFinishedAt : ℚ)
      (outcome : Except EngineError RuntimeStreamResult)
  | complete (handle : HandleId) (result : RuntimeStreamResult) (metrics : Dict String (Option ℚ))
  | combineMetrics (handle : HandleId) (result : RuntimeStreamResult) (metrics : Dict String (Option ℚ))

/-- `fail`, and with it `_fail_job`. -/
abbrev ExecutorTask.fail (handle : HandleId) (error : EngineError) : ExecutorTask :=
  .finish handle none (some error)

/-- What comes from outside while a task runs. -/
inductive ExecutorInput where
  | clock (now : ℚ)
  | returns (result : RuntimeStreamResult) (now : ℚ)
  | returnsAudio
  | raises (error : EngineError) (now : ℚ)
  | emitStarted (sampleRateHz channelCount : ℤ)
  | emitAudio (event : StreamAudioChunk) (remaining : ℚ)

/-- The model whose `_stream_finished` a task calls: the one its callback
captured, or, when an enqueue has raised, the one `stream` was called for. -/
def ExecutorTask.streamFinished (modelName : String) : ExecutorTask → Option String
  | .raised _ _ => some modelName
  | .runTerminalCallbacks _ (.streamFinished name :: _) => some name
  | _ => none

namespace ExecutorState

abbrev Step := Effect ExecutorState ExecutorTask

/-- The executor's fair queue. -/
abbrev queue (s : ExecutorState) : FairPendingQueue := s.executor.pendingQueue

def setQueue (s : ExecutorState) (queue : FairPendingQueue) : ExecutorState :=
  { s with executor := { s.executor with pendingQueue := queue } }

def setHandle (s : ExecutorState) (h : HandleId) (handle : SynthesisHandle) : ExecutorState :=
  { s with handles := Function.update s.handles h handle }

/-- `_cond.notify_all`: only a thread that waits is woken. -/
def notifyAll (s : ExecutorState) : ExecutorState :=
  { s with dispatcher := if s.dispatcher = .waiting then .notified else s.dispatcher }

/-- A fresh handle, known to its caller alone. -/
def openStream (s : ExecutorState) (request : ResponseRequest) (spec : HandleSpec) (now : ℚ) : Step where
  state := { s.setHandle s.nextHandle (spec.handle now) with nextHandle := s.nextHandle + 1 }
  next := [.enqueueStream request s.nextHandle]

/-- `enqueue_stream`, up to the registration of the cancel callback. -/
def enqueueStream (s : ExecutorState) (request : ResponseRequest) (h : HandleId) (now : ℚ) : Step :=
  if !s.executor.acceptingNewRequests || s.executor.stopRequested then
    { state := { s with rejected := s.rejected ++ [h] }
      next := [.raised h (.modelState s.executor.modelName "model_unloading")] }
  else
    match s.queue.enqueue request h now with
    | (queue, .error error) =>
      { state := { s.setQueue queue with rejected := s.rejected ++ [h] }
        next := [.raised h error] }
    | (queue, .ok job) =>
      { state := { s.setQueue queue with locked := true, accepted := s.accepted ++ [job] }
        next := [.setCancelCallback job, .leaveEnqueue] }

/-- `set_cancel_callback`; a handle cancelled before calls back at once. -/
def setCancelCallback (s : ExecutorState) (job : SchedulerJob) : Step :=
  let (handle, callNow) := (s.handles job.streamHandle).setCancelCallback job
  { state := s.setHandle job.streamHandle handle
    next := if callNow then [.cancelStreamJob job true] else [] }

/-- The end of `enqueue_stream`. -/
def leaveEnqueue (s : ExecutorState) : Step where
  state := { s.notifyAll with locked := false }

/-- `snapshot`. -/
def snapshot (s : ExecutorState) (now : ℚ) : ExecutorState × ExecutorSnapshot :=
  let (queue, fairnessKeys) := s.queue.snapshots now
  (s.setQueue queue,
    { queueDepth := s.queue.pendingCount
      runtimeInflight := s.executor.runtimeInflight
      configuredTargetInflight := s.executor.configuredTargetInflight
      effectiveTargetInflight := s.executor.effectiveTargetInflight
      acceptingNewRequests := s.executor.acceptingNewRequests
      fairnessKeys := fairnessKeys
      fairnessRejectedPerKeyLimit := queue.rejectedPerKeyLimit
      fairnessRejectedExecutorLimit := queue.rejectedExecutorLimit })

/-- `begin_shutdown`: the pending jobs are drained, then failed one by one, and
the active handles are cancelled. -/
def beginShutdown (s : ExecutorState) (now : ℚ) : Step :=
  let (queue, cancelledJobs) := s.queue.drain now
  let s' : ExecutorState :=
    { s with
      executor := { s.executor with
        pendingQueue := queue
        acceptingNewRequests := false
        stopRequested := true } }
  { state := s'.notifyAll
    next := cancelledJobs.map (fun job =>
        .fail job.streamHandle (.modelState s.executor.modelName "model_unloading")) ++
      s.executor.activeStreamHandles.values.map .cancel }

/-- `cancel` of a handle. -/
def cancel (s : ExecutorState) (h : HandleId) : Step :=
  let (handle, callback) := (s.handles h).cancel
  { state := s.setHandle h handle
    next := (callback.map fun job => ExecutorTask.cancelStreamJob job false).toList }

/-- `add_terminal_callback`; on a terminal handle it is called at once. -/
def addTerminalCallback (s : ExecutorState) (h : HandleId) (callback : TerminalCallback) : Step :=
  let (handle, callNow) := (s.handles h).addTerminalCallback callback
  { state := s.setHandle h handle
    next := if callNow then [.runTerminalCallbacks h [callback]] else [] }

/-- `_cancel_stream_job`. -/
def cancelStreamJob (s : ExecutorState) (job : SchedulerJob) (now : ℚ) : Step :=
  match s.queue.remove job now with
  | (queue, true) =>
    { state := (s.setQueue queue).notifyAll
      next := [.fail job.streamHandle (.synthesisCancelled "synthesis was cancelled while queued")] }
  | (queue, false) => { state := s.setQueue queue }

/-- `_finish`, entered in the ledger whether or not it finds the handle
terminal. -/
def finish (s : ExecutorState) (h : HandleId) (event : Option StreamEvent) (error : Option EngineError) :
    Step :=
  let (handle, callbacks) := (s.handles h).finish event error
  { state := { s.setHandle h handle with finished := s.finished ++ [h] }
    next := [.runTerminalCallbacks h callbacks] }

/-- A terminal callback is called, or the caller whose enqueue raised makes up
for it. -/
def callBack (s : ExecutorState) (h : HandleId) : TerminalCallback → ExecutorState
  | .streamFinished _ => { s with streamsFinished := s.streamsFinished ++ [h] }
  | .other _ => s

/-- One pass of `_run_loop` under `_cond`: end, dispatch, or wait. -/
def runLoop (s : ExecutorState) (now : ℚ) : Step :=
  if s.executor.stopRequested ∧ s.queue.pendingCount = 0 ∧ s.executor.runtimeInflight = 0 then
    { state := s }
  else if 0 < s.queue.pendingCount ∧ s.executor.runtimeInflight < s.executor.effectiveTargetInflight then
    match s.queue.popNext now with
    | (queue, none) => { state := s.setQueue queue, next := [.runLoop] }
    | (queue, some job) =>
      { state := { s with
          executor := { s.executor with
            pendingQueue := queue
            runtimeInflight := s.executor.runtimeInflight + 1
            activeStreamHandles := s.executor.activeStreamHandles.set job.jobId job.streamHandle } }
        next := [.startWorker job now, .runLoop] }
  else { state := { s with dispatcher := .waiting }, next := [.parked] }

/-- The slot of a job given back, with the guard of the source. -/
def releaseSlot (s : ExecutorState) (job : SchedulerJob) (queue : FairPendingQueue) : ExecutorState :=
  { s with
    executor := { s.executor with
      pendingQueue := queue
      runtimeInflight :=
        if 0 < s.executor.runtimeInflight then s.executor.runtimeInflight - 1 else s.executor.runtimeInflight
      activeStreamHandles := s.executor.activeStreamHandles.erase job.jobId } }

/-- The worker could not be started: the job is abandoned and failed. -/
def abandonJob (s : ExecutorState) (job : SchedulerJob) (error : EngineError) (now : ℚ) : Step where
  state := (s.releaseSlot job (s.queue.abandon job now)).notifyAll
  next := [.fail job.streamHandle error]

/-- The worker marks its handle dispatched. -/
def runJob (s : ExecutorState) (job : SchedulerJob) (dequeuedAt now : ℚ) : Step where
  state := s.setHandle job.streamHandle
    ((s.handles job.streamHandle).markDispatched (max 0 ((dequeuedAt - job.enqueuedAt) * 1000)))
  next := [.checkCancelled job now]

/-- A job cancelled by now does not reach the backend. -/
def checkCancelled (s : ExecutorState) (job : SchedulerJob) (backendStartedAt now : ℚ) : Step where
  state := s
  next :=
    if (s.handles job.streamHandle).cancelled then
      [.release job backendStartedAt now
        (.error (.synthesisCancelled "synthesis was cancelled before runtime dispatch"))]
    else [.backend job backendStartedAt]

/-- The metrics `_run_job` adds to the runtime's. -/
def jobMetrics (handle : SynthesisHandle) (result : RuntimeStreamResult)
    (backendStartedAt backendFinishedAt : ℚ) : Dict String (Option ℚ) :=
  let totalMs := max 0 ((backendFinishedAt - handle.createdAt) * 1000)
  let backendMs := max 0 ((backendFinishedAt - backendStartedAt) * 1000)
  (((result.metrics.set "engine_queue_wait_ms" (some handle.schedulerQueueWaitMs)).set
    "backend_synthesis_wall_ms" (some backendMs)).set
    "engine_total_wall_ms" (some totalMs)).set
    "engine_outside_backend_wall_ms" (some (max 0 (totalMs - backendMs)))

/-- The worker gives its slot back and is charged, whatever the outcome. -/
def release (s : ExecutorState) (job : SchedulerJob) (backendStartedAt backendFinishedAt : ℚ)
    (outcome : Except EngineError RuntimeStreamResult) : Step where
  state := (s.releaseSlot job (s.queue.complete job
    (max 0 ((backendFinishedAt - backendStartedAt) * 1000)) backendFinishedAt)).notifyAll
  next :=
    match outcome with
    | .error error => [.fail job.streamHandle error]
    | .ok result =>
      [.complete job.streamHandle result
        (jobMetrics (s.handles job.streamHandle) result backendStartedAt backendFinishedAt)]

/-- `complete`: a cancelled handle fails instead. -/
def complete (s : ExecutorState) (h : HandleId) (result : RuntimeStreamResult)
    (metrics : Dict String (Option ℚ)) : Step where
  state := s
  next :=
    if (s.handles h).cancelled then
      [.fail h (.synthesisCancelled "synthesis was cancelled before completion")]
    else [.combineMetrics h result metrics]

/-- `read_event`, once there is something to read. -/
def readEvent (s : ExecutorState) (h : HandleId) : Step where
  state := s.setHandle h (s.handles h).popEvent.1

/-- The backend emits, and goes on with whatever the handle answers. -/
def emit (s : ExecutorState) (task : ExecutorTask) (h : HandleId)
    (handle : Except EngineError (Option SynthesisHandle)) : Step where
  state := match handle with
    | .ok (some handle) => s.setHandle h handle
    | _ => s
  next := [task]

/-- The code outside: what the backend does on an input. -/
def runBackend (s : ExecutorState) (task : ExecutorTask) (job : SchedulerJob) (backendStartedAt : ℚ) :
    ExecutorInput → Option Step
  | .returns result now => some { state := s, next := [.release job backendStartedAt now (.ok result)] }
  | .raises error now => some { state := s, next := [.release job backendStartedAt now (.error error)] }
  | .emitStarted sampleRateHz channelCount =>
    some (s.emit task job.streamHandle
      (((s.handles job.streamHandle).emitStarted sampleRateHz channelCount).map some))
  | .emitAudio event remaining =>
    some (s.emit task job.streamHandle ((s.handles job.streamHandle).emitAudio event remaining))
  | _ => none

/-- One task, on an input from outside; `none` when it cannot run. -/
def run (s : ExecutorState) (task : ExecutorTask) (input : ExecutorInput) : Option Step :=
  match task, input with
  | .openStream request spec, .clock now => some (s.openStream request spec now)
  | .enqueueStream request h, .clock now => if s.locked then none else some (s.enqueueStream request h now)
  | .setCancelCallback job, _ => some (s.setCancelCallback job)
  | .leaveEnqueue, _ => some s.leaveEnqueue
  | .raised h _, _ => some { state := s.callBack h (.streamFinished s.executor.modelName) }
  | .snapshot, .clock now => if s.locked then none else some { state := (s.snapshot now).1 }
  | .beginShutdown, .clock now => if s.locked then none else some (s.beginShutdown now)
  | .cancel h, _ => if h < s.nextHandle then some (s.cancel h) else none
  | .addTerminalCallback h callback, _ =>
    if h < s.nextHandle then some (s.addTerminalCallback h callback) else none
  | .readEvent h, _ => if (s.handles h).Readable then some (s.readEvent h) else none
  | .cancelStreamJob job holding, .clock now =>
    if s.locked && !holding then none else some (s.cancelStreamJob job now)
  | .finish h event error, _ => some (s.finish h event error)
  | .runTerminalCallbacks _ [], _ => some { state := s }
  | .runTerminalCallbacks h (callback :: callbacks), _ =>
    some { state := s.callBack h callback, next := [.runTerminalCallbacks h callbacks] }
  | .runLoop, .clock now => if s.locked then none else some (s.runLoop now)
  | .parked, .clock now =>
    if s.locked ∨ s.dispatcher ≠ .notified then none
    else some (({ s with dispatcher := .running } : ExecutorState).runLoop now)
  | .startWorker job dequeuedAt, .clock _ => some { state := s, spawned := [[.runJob job dequeuedAt]] }
  | .startWorker job _, .raises error _ => some { state := s, next := [.abandonJob job error] }
  | .abandonJob job error, .clock now => if s.locked then none else some (s.abandonJob job error now)
  | .runJob job dequeuedAt, .clock now => some (s.runJob job dequeuedAt now)
  | .checkCancelled job backendStartedAt, .clock now => some (s.checkCancelled job backendStartedAt now)
  | .backend job backendStartedAt, .returnsAudio =>
    if s.executor.streaming then none
    else some { state := s, next := [.emitCompleteResult job backendStartedAt] }
  | .backend job backendStartedAt, input =>
    s.runBackend (.backend job backendStartedAt) job backendStartedAt input
  | .emitCompleteResult job backendStartedAt, input =>
    s.runBackend (.emitCompleteResult job backendStartedAt) job backendStartedAt input
  | .release job backendStartedAt backendFinishedAt outcome, _ =>
    if s.locked then none else some (s.release job backendStartedAt backendFinishedAt outcome)
  | .complete h result metrics, _ => some (s.complete h result metrics)
  | .combineMetrics h result metrics, _ =>
    some { state := s, next := [.finish h (some ((s.handles h).completedEvent result metrics)) none] }
  | _, _ => none

/-- Before the first call. -/
def init (executor : LoadedModelExecutor) : ExecutorState where
  executor := executor
  handles := fun _ => SynthesisHandle.new "" executor.modelName 0 1 1 1

end ExecutorState

/-- What callers from outside begin with. -/
def ExecutorTask.entry : ExecutorTask → Bool
  | .openStream .. | .snapshot | .beginShutdown | .cancel _ | .readEvent _ => true
  | .addTerminalCallback _ (.other _) => true
  | _ => false

/-- The threads around one executor. -/
def executorProgram : Threads.Program ExecutorState ExecutorTask ExecutorInput where
  run := ExecutorState.run
  entry := ExecutorTask.entry

/-- A new executor, started. -/
def ExecutorState.start (executor : LoadedModelExecutor) : Threads.Config ExecutorState ExecutorTask where
  state := .init executor
  threads := [[.runLoop]]

end TtsPool
