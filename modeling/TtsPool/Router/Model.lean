/-
# The router

`TTSRouterEngine` of `app/engine/router.py`, with the runtimes it loads and the
executors it starts.  `stream`, `load_model` and `unload_model` each hold
`_state_lock` for some sections and let go of it for the slow work in between.
A `RouterTask` is one such section, or one call outside the lock: of the GPU
query, of a runtime, of the executor.  The threads of an executor are part of
the program, their tasks under the executor's number; running one is the
executor's own step, and where it calls `_stream_finished` the router's count
goes down in that step.

Runtimes and executors are told apart by number, in the order they are built,
and stay in their tables after the engine has let go of them.  What a runtime's
methods and `nvidia-smi` do comes from outside: they may return or raise
anything.  An exception out of `begin_shutdown` comes once its work is done.  The
`load` of NanoVLLM waits for a future, which may raise asyncio's `CancelledError`, no
`Exception`; out of the constructor that would end the process, here the constructor
goes on to the next model.

Beside the state stand the ledgers: `exits`, of the calls of `load_model` and
`unload_model` that moved a model, the lifecycle they left it in; `unloads`, of
the unloads that did their work and returned, what they took out.

The payloads of the admin methods are left out, down to the one thing that
building one does: it takes a snapshot of the model's executor.
-/

import TtsPool.Executor.Model

namespace TtsPool

open Threads (Effect)

/-- A runtime by reference. -/
abbrev RuntimeId := ℕ

/-- A `LoadedModelExecutor` by reference. -/
abbrev ExecutorId := ℕ

/-- `ModelLifecycle`. -/
inductive ModelLifecycle where
  | unloaded
  | loading
  | loaded
  | unloading
  | failed
deriving DecidableEq

/-- A lifecycle on which `load_model` or `unload_model` can act. -/
def ModelLifecycle.Settled (lifecycle : ModelLifecycle) : Prop :=
  lifecycle = .unloaded ∨ lifecycle = .loaded ∨ lifecycle = .failed

instance (lifecycle : ModelLifecycle) : Decidable lifecycle.Settled := inferInstanceAs (Decidable (_ ∨ _))

/-- `_lifecycle_error_code`. -/
def lifecycleErrorCode : ModelLifecycle → String
  | .unloaded => "model_not_loaded"
  | .loading => "model_loading"
  | .unloading => "model_unloading"
  | .failed => "model_failed"
  | .loaded => "model_not_loaded"

/-- `ModelRuntimeState`. -/
structure ModelRuntimeState where
  resolvedBackend : String
  configuredEnabled : Bool
  lifecycle : ModelLifecycle := .unloaded
  inflightRequests : ℕ := 0
  configuredTargetInflight : ℤ := 1
  effectiveTargetInflight : ℤ := 1
  lastError : Option String := none
  observedVramMib : Option ℤ := none

/-- The fields of `ModelSettings` that the router reads. -/
structure ModelSettings where
  backend : Option String := none
  enabled : Bool := true
  targetInflight : ℤ := 1

/-- The fields of `GrpcSettings` that the router reads. -/
structure GrpcSettings where
  streamBufferChunks : ℤ := 4
  streamBufferBytes : ℤ := 1048576
  stalledConsumerTimeoutS : ℚ := 2
  shutdownGraceS : ℚ := 5
deriving DecidableEq

/-- `AppSettings`: the gRPC settings, and the engine's. -/
structure AppSettings where
  grpc : GrpcSettings := {}
  backend : String := "stub"
  models : Dict String ModelSettings
  fairness : FairnessSettings

/-- What the engine reads of a runtime. -/
structure RuntimeSpec where
  streaming : Bool := true
  maxStreamChunkBytes : Option ℤ := none
  runtimeCapability : Option ℤ := some 1

/-- `int(getattr(runtime, "runtime_capability", 1) or 1)`. -/
def RuntimeSpec.capability (spec : RuntimeSpec) : ℤ :=
  match spec.runtimeCapability with
  | none => 1
  | some capability => if capability = 0 then 1 else capability

/-- A runtime, whether its `load` has returned and whether its `close` has been
called. -/
structure TTSRuntime extends RuntimeSpec where
  modelName : String
  loaded : Bool := false
  closed : Bool := false

/-- An executor, the name it serves and the runtime it calls. -/
structure ServingExecutor where
  modelName : String
  runtime : RuntimeId
  state : ExecutorState

/-- `TTSRouterEngine`. -/
structure TTSRouterEngine where
  settings : AppSettings
  runtimes : Dict String RuntimeId := Dict.empty
  executors : Dict String ExecutorId := Dict.empty
  modelStates : Dict String ModelRuntimeState

/-- The end of a `load_model` or `unload_model` call that moved the model. -/
structure CallExit where
  modelName : String
  lifecycle : Option ModelLifecycle
  error : Option EngineError

/-- An unload that did its work and returned, with what it took out. -/
structure Unload where
  modelName : String
  executor : Option ExecutorId
  runtime : Option RuntimeId

/-- What the threads around the engine share. -/
structure RouterState where
  engine : TTSRouterEngine
  runtimeTable : RuntimeId → TTSRuntime
  nextRuntime : RuntimeId := 0
  executorTable : ExecutorId → ServingExecutor
  nextExecutor : ExecutorId := 0
  exits : List CallExit := []
  unloads : List Unload := []

/-- What a call of `load_model` carries from section to section. -/
structure LoadCall where
  modelName : String
  resolvedBackend : String
  targetInflight : ℤ
  gpuUsedBeforeMib : Option ℤ := none

/-- One task of a thread. -/
inductive RouterTask where
  | stream (request : ResponseRequest)
  /-- The call has ended with an exception. -/
  | raised (error : EngineError)
  /-- A task of an executor's threads. -/
  | executor (e : ExecutorId) (task : ExecutorTask)
  /-- `load_model`, with `load_request.target_inflight`. -/
  | loadModel (modelName : String) (targetInflight : Option ℤ)
  | queryGpuBefore (call : LoadCall)
  | buildRuntime (call : LoadCall)
  | loadRuntime (call : LoadCall) (runtime : RuntimeId)
  | checkBuffer (call : LoadCall) (runtime : RuntimeId)
  | buildExecutor (call : LoadCall) (runtime : RuntimeId)
  | startExecutor (call : LoadCall) (runtime : RuntimeId) (e : ExecutorId)
  | loadFailed (modelName : String) (error : EngineError)
  | queryGpuAfter (call : LoadCall) (runtime : RuntimeId) (e : ExecutorId)
  | register (call : LoadCall) (runtime : RuntimeId) (e : ExecutorId) (gpuUsedAfterMib : Option ℤ)
  | unloadModel (modelName : String)
  /-- After `begin_shutdown`, where there was an executor. -/
  | setDeadline (modelName : String) (shutdown : Bool)
  | awaitDrain (modelName : String) (deadline : ℚ)
  | closeRuntime (modelName : String) (e : Option ExecutorId) (runtime : Option RuntimeId)
  | finishUnload (modelName : String) (e : Option ExecutorId) (runtime : Option RuntimeId)

/-- What comes from outside while a task runs. -/
inductive RouterInput where
  | executor (input : ExecutorInput)
  | clock (now : ℚ)
  | uuid (hex : String)
  | subprocess (result : Except EngineError (Option ℤ))
  | built (spec : RuntimeSpec)
  | returns
  | raises (error : EngineError)
  /-- What is raised is no `Exception`, such as asyncio's `CancelledError`. -/
  | escapes (error : EngineError)

/-- `query_primary_gpu_used_mib`, on what running `nvidia-smi` gave: a missing
program and a failed one mean no reading, any other exception goes through. -/
def queryPrimaryGpuUsedMib : Except EngineError (Option ℤ) → Except EngineError (Option ℤ)
  | .ok used => .ok used
  | .error error =>
    if error.className = "FileNotFoundError" ∨ error.className = "CalledProcessError" then .ok none
    else .error error

/-- The backends `_build_runtime` knows. -/
def supportedBackends : List String := ["stub", "kokoro", "voxcpm2", "nanovllm_voxcpm"]

/-- `_resolve_model_backend`; names of backends are ASCII. -/
def resolveModelBackend (globalBackend : String) (modelSettings : ModelSettings) : String :=
  let chosen :=
    match modelSettings.backend with
    | some backend => if backend = "" then globalBackend else backend
    | none => globalBackend
  (pyStrip (if chosen = "" then "stub" else chosen)).toLower

namespace TTSRouterEngine

/-- `_stream_finished`, with the guard of the source. -/
def streamFinished (engine : TTSRouterEngine) (modelName : String) : TTSRouterEngine :=
  { engine with
    modelStates := engine.modelStates.modify modelName fun state =>
      if 0 < state.inflightRequests then { state with inflightRequests := state.inflightRequests - 1 }
      else state }

/-- The constructor, before it loads the enabled models. -/
def init (settings : AppSettings) : TTSRouterEngine where
  settings := settings
  modelStates := settings.models.mapValues fun modelSettings =>
    { resolvedBackend := resolveModelBackend settings.backend modelSettings
      configuredEnabled := modelSettings.enabled
      configuredTargetInflight := modelSettings.targetInflight
      effectiveTargetInflight := modelSettings.targetInflight }

end TTSRouterEngine

namespace RouterState

abbrev Step := Effect RouterState RouterTask

/-- `_model_states.get`. -/
def modelState? (s : RouterState) (modelName : String) : Option ModelRuntimeState :=
  s.engine.modelStates.get? modelName

/-- The lifecycle of a model. -/
def lifecycle? (s : RouterState) (modelName : String) : Option ModelLifecycle :=
  (s.modelState? modelName).map ModelRuntimeState.lifecycle

/-- `inflight_requests` of a model. -/
def inflight (s : RouterState) (modelName : String) : ℕ :=
  ((s.modelState? modelName).map ModelRuntimeState.inflightRequests).getD 0

/-- Assignments to the fields of a model's state. -/
def modifyState (s : RouterState) (modelName : String) (f : ModelRuntimeState → ModelRuntimeState) :
    RouterState :=
  { s with engine := { s.engine with modelStates := s.engine.modelStates.modify modelName f } }

def setRuntime (s : RouterState) (r : RuntimeId) (runtime : TTSRuntime) : RouterState :=
  { s with runtimeTable := Function.update s.runtimeTable r runtime }

/-- A new runtime. -/
def addRuntime (s : RouterState) (runtime : TTSRuntime) : RouterState :=
  { s.setRuntime s.nextRuntime runtime with nextRuntime := s.nextRuntime + 1 }

def setExecutor (s : RouterState) (e : ExecutorId) (executor : ServingExecutor) : RouterState :=
  { s with executorTable := Function.update s.executorTable e executor }

/-- The end of a call that moved the model. -/
def leave (s : RouterState) (modelName : String) (error : Option EngineError) : Step where
  state :=
    { s with exits := s.exits ++
        [⟨modelName, s.lifecycle? modelName, error⟩] }
  next := error.toList.map .raised

/-- The snapshot taken for `_admin_model_entry_locked`. -/
def entrySnapshot (s : RouterState) (modelName : String) : List RouterTask :=
  (s.engine.executors.get? modelName).toList.map fun e => .executor e .snapshot

/-- The arguments of the handle that `stream` makes, and its callback. -/
def handleSpec (s : RouterState) (modelName hex : String) : HandleSpec where
  responseId := "ttsresp_" ++ hex
  modelName := modelName
  maxBufferChunks := s.engine.settings.grpc.streamBufferChunks
  maxBufferBytes := s.engine.settings.grpc.streamBufferBytes
  stalledConsumerTimeoutS := s.engine.settings.grpc.stalledConsumerTimeoutS
  terminalCallbacks := [.streamFinished modelName]

/-- `stream`, up to the increment; what follows is the executor's. -/
def stream (s : RouterState) (request : ResponseRequest) (hex : String) : Step :=
  let modelName := pyStrip request.model
  match s.engine.settings.models.get? modelName, s.modelState? modelName with
  | some _, some state =>
    if state.lifecycle ≠ .loaded then
      { state := s, next := [.raised (.modelState modelName (lifecycleErrorCode state.lifecycle))] }
    else
      match s.engine.executors.get? modelName with
      | none => { state := s, next := [.raised (.modelState modelName "model_not_loaded")] }
      | some e =>
        { state := s.modifyState modelName fun state =>
            { state with inflightRequests := state.inflightRequests + 1 }
          next := [.executor e (.openStream request (s.handleSpec modelName hex))] }
  | _, _ => { state := s, next := [.raised (.unknownModel modelName)] }

/-- An executor's step, and with it the call of `_stream_finished` it makes. -/
def afterExecutor (s : RouterState) (e : ExecutorId) (task : ExecutorTask)
    (effect : Effect ExecutorState ExecutorTask) : Step :=
  let executor := s.executorTable e
  let s' := s.setExecutor e { executor with state := effect.state }
  { state :=
      match task.streamFinished executor.modelName with
      | some modelName => { s' with engine := s'.engine.streamFinished modelName }
      | none => s'
    next := effect.next.map (.executor e)
    spawned := effect.spawned.map fun tasks => tasks.map (.executor e) }

/-- A task of an executor's threads. -/
def runExecutor (s : RouterState) (e : ExecutorId) (task : ExecutorTask) (input : ExecutorInput) :
    Option Step :=
  if e < s.nextExecutor then ((s.executorTable e).state.run task input).map (s.afterExecutor e task)
  else none

/-- The first section of `load_model`. -/
def loadModel (s : RouterState) (modelName : String) (targetInflight : Option ℤ) : Step :=
  match s.engine.settings.models.get? modelName, s.modelState? modelName with
  | some modelSettings, some state =>
    match state.lifecycle with
    | .unloading => { state := s, next := [.raised (.modelState modelName "model_unloading")] }
    | .loaded | .loading => { state := s, next := s.entrySnapshot modelName }
    | .unloaded | .failed =>
      let targetInflight :=
        match targetInflight with
        | none => modelSettings.targetInflight
        | some target => max 1 target
      { state := s.modifyState modelName fun state =>
          { state with
            lifecycle := .loading
            lastError := none
            configuredTargetInflight := targetInflight }
        next := [.queryGpuBefore
          { modelName := modelName
            resolvedBackend := state.resolvedBackend
            targetInflight := targetInflight }] }
  | _, _ => { state := s, next := [.raised (.unknownModel modelName)] }

/-- The GPU query before loading, outside the `try`. -/
def queryGpuBefore (s : RouterState) (call : LoadCall) (result : Except EngineError (Option ℤ)) : Step :=
  match queryPrimaryGpuUsedMib result with
  | .ok used => { state := s, next := [.buildRuntime { call with gpuUsedBeforeMib := used }] }
  | .error error => s.leave call.modelName (some error)

/-- `_build_runtime`. -/
def buildRuntime (s : RouterState) (call : LoadCall) (spec : RuntimeSpec) : Step :=
  if call.resolvedBackend ∈ supportedBackends then
    { state := s.addRuntime { spec with modelName := call.modelName }
      next := [.loadRuntime call s.nextRuntime] }
  else
    { state := s
      next := [.loadFailed call.modelName
        (.valueError ("unsupported backend: " ++ pyRepr call.resolvedBackend))] }

/-- `runtime.load()` returns. -/
def loadRuntime (s : RouterState) (call : LoadCall) (r : RuntimeId) : Step where
  state := s.setRuntime r { s.runtimeTable r with loaded := true }
  next := [.checkBuffer call r]

/-- A chunk of the runtime's can be larger than the stream buffer. -/
def BufferTooSmall (s : RouterState) (r : RuntimeId) : Prop :=
  ∃ bytes ∈ (s.runtimeTable r).maxStreamChunkBytes, s.engine.settings.grpc.streamBufferBytes < bytes

instance (s : RouterState) (r : RuntimeId) : Decidable (s.BufferTooSmall r) :=
  inferInstanceAs (Decidable (∃ bytes ∈ (s.runtimeTable r).maxStreamChunkBytes, _))

/-- The check of the buffer size. -/
def checkBuffer (s : RouterState) (call : LoadCall) (r : RuntimeId) : Step where
  state := s
  next :=
    if s.BufferTooSmall r then
      [.loadFailed call.modelName (.valueError
        ("service.grpc.stream_buffer_bytes is smaller than the runtime's " ++ "maximum PCM chunk"))]
    else [.buildExecutor call r]

/-- The executor on a loaded runtime. -/
def buildExecutor (s : RouterState) (call : LoadCall) (r : RuntimeId) : Step where
  state :=
    { s.setExecutor s.nextExecutor
        { modelName := call.modelName
          runtime := r
          state := .init (.new call.modelName (s.runtimeTable r).streaming call.targetInflight
            s.engine.settings.fairness (s.runtimeTable r).capability) } with
      nextExecutor := s.nextExecutor + 1 }
  next := [.startExecutor call r s.nextExecutor]

/-- The `except` of `load_model`, which first asks for the message. -/
def loadFailed (s : RouterState) (modelName : String) (error : EngineError) : Step :=
  match exceptionMessage error with
  | .error raised => s.leave modelName (some raised)
  | .ok message =>
    (s.modifyState modelName fun state =>
      { state with
        lifecycle := .failed
        lastError := some message }).leave modelName (some (.runtimeError message))

/-- The GPU query after loading, outside the `try`. -/
def queryGpuAfter (s : RouterState) (call : LoadCall) (r : RuntimeId) (e : ExecutorId)
    (result : Except EngineError (Option ℤ)) : Step :=
  match queryPrimaryGpuUsedMib result with
  | .ok used => { state := s, next := [.register call r e used] }
  | .error error => s.leave call.modelName (some error)

/-- What loading has added to the GPU's used memory, when that is known. -/
def observedVramMib (gpuUsedBeforeMib gpuUsedAfterMib : Option ℤ) : Option ℤ :=
  match gpuUsedBeforeMib, gpuUsedAfterMib with
  | some before, some after => if before < after then some (after - before) else none
  | _, _ => none

/-- The last section of `load_model`. -/
def register (s : RouterState) (call : LoadCall) (r : RuntimeId) (e : ExecutorId)
    (gpuUsedAfterMib : Option ℤ) : Step :=
  let s' : RouterState :=
    { s with engine := { s.engine with
        runtimes := s.engine.runtimes.set call.modelName r
        executors := s.engine.executors.set call.modelName e } }
  let step := (s'.modifyState call.modelName fun state =>
    { state with
      lifecycle := .loaded
      lastError := none
      effectiveTargetInflight := min call.targetInflight (s.runtimeTable r).capability
      observedVramMib := (observedVramMib call.gpuUsedBeforeMib gpuUsedAfterMib).or
        state.observedVramMib }).leave call.modelName none
  { step with next := step.state.entrySnapshot call.modelName }

/-- The first section of `unload_model`. -/
def unloadModel (s : RouterState) (modelName : String) : Step :=
  match s.engine.settings.models.get? modelName, s.modelState? modelName with
  | some _, some state =>
    match state.lifecycle with
    | .loading => { state := s, next := [.raised (.modelState modelName "model_loading")] }
    | .unloaded | .unloading => { state := s, next := s.entrySnapshot modelName }
    | .loaded | .failed =>
      { state := s.modifyState modelName fun state => { state with lifecycle := .unloading }
        next :=
          match s.engine.executors.get? modelName with
          | some e => [.executor e .beginShutdown, .setDeadline modelName true]
          | none => [.setDeadline modelName false] }
  | _, _ => { state := s, next := [.raised (.unknownModel modelName)] }

/-- The model's executor and runtime are popped. -/
def popModel (s : RouterState) (modelName : String) : RouterState :=
  { s with engine := { s.engine with
      executors := s.engine.executors.erase modelName
      runtimes := s.engine.runtimes.erase modelName } }

/-- The longest time that a lock of `threading` is waited for, in seconds. -/
def timeoutMax : ℚ := 9223372036854775 / 1000000

/-- The exception of a wait that is to be longer. -/
def waitTooLong : EngineError := .other "OverflowError" "timestamp out of range for platform time_t"

/-- One look at the count of requests: still some, too late, or none and the
model's executor and runtime are taken out. -/
def awaitDrain (s : RouterState) (modelName : String) (deadline now : ℚ) : Option Step :=
  (s.modelState? modelName).map fun state =>
    if 0 < state.inflightRequests then
      let remaining := deadline - now
      if remaining ≤ 0 then
        (s.modifyState modelName fun state =>
          { state with
            lifecycle := .failed
            lastError := some "model unload timed out while synthesis was still active" }).leave modelName
          (some (.runtimeError "model unload timed out while synthesis was still active"))
      -- a grace period may be longer than `wait` can be asked for
      else if timeoutMax < remaining then s.leave modelName (some waitTooLong)
      else { state := s, next := [.awaitDrain modelName deadline] }
    else
      { state := s.popModel modelName
        next := [.closeRuntime modelName (s.engine.executors.get? modelName)
          (s.engine.runtimes.get? modelName)] }

/-- `runtime.close()` is called. -/
def close (s : RouterState) (r : RuntimeId) : RouterState :=
  s.setRuntime r { s.runtimeTable r with closed := true }

/-- The last section of `unload_model`. -/
def finishUnload (s : RouterState) (modelName : String) (e : Option ExecutorId) (runtime : Option RuntimeId) :
    Step :=
  let step := (s.modifyState modelName fun state =>
    { state with
      lifecycle := .unloaded
      lastError := none
      effectiveTargetInflight := state.configuredTargetInflight }).leave modelName none
  { state := { step.state with unloads := s.unloads ++ [⟨modelName, e, runtime⟩] }
    next := step.state.entrySnapshot modelName }

/-- One task, on an input from outside; `none` when it cannot run. -/
def run (s : RouterState) (task : RouterTask) (input : RouterInput) : Option Step :=
  match task, input with
  | .stream request, .uuid hex => some (s.stream request hex)
  | .raised _, _ => some { state := s }
  | .executor e task, .executor input => s.runExecutor e task input
  | .loadModel modelName targetInflight, _ => some (s.loadModel modelName targetInflight)
  | .queryGpuBefore call, .subprocess result => some (s.queryGpuBefore call result)
  | .buildRuntime call, .built spec => some (s.buildRuntime call spec)
  | .buildRuntime call, .raises error => some { state := s, next := [.loadFailed call.modelName error] }
  | .loadRuntime call r, .returns => some (s.loadRuntime call r)
  | .loadRuntime call _, .raises error => some { state := s, next := [.loadFailed call.modelName error] }
  | .loadRuntime call _, .escapes error => some (s.leave call.modelName (some error))
  | .checkBuffer call r, _ => some (s.checkBuffer call r)
  | .buildExecutor call r, .returns => some (s.buildExecutor call r)
  | .buildExecutor call _, .raises error => some { state := s, next := [.loadFailed call.modelName error] }
  | .startExecutor call r e, .returns =>
    some { state := s, next := [.queryGpuAfter call r e], spawned := [[.executor e .runLoop]] }
  | .startExecutor call _ _, .raises error => some { state := s, next := [.loadFailed call.modelName error] }
  | .loadFailed modelName error, _ => some (s.loadFailed modelName error)
  | .queryGpuAfter call r e, .subprocess result => some (s.queryGpuAfter call r e result)
  | .register call r e gpuUsedAfterMib, _ => some (s.register call r e gpuUsedAfterMib)
  | .unloadModel modelName, _ => some (s.unloadModel modelName)
  | .setDeadline modelName _, .clock now =>
    some { state := s, next := [.awaitDrain modelName (now + s.engine.settings.grpc.shutdownGraceS)] }
  | .setDeadline modelName true, .raises error => some (s.leave modelName (some error))
  | .awaitDrain modelName deadline, .clock now => s.awaitDrain modelName deadline now
  -- `executor.join` waits a second at most for the dispatcher and moves nothing
  | .closeRuntime modelName e none, .returns => some { state := s, next := [.finishUnload modelName e none] }
  | .closeRuntime modelName e (some r), .returns =>
    some { state := s.close r, next := [.finishUnload modelName e (some r)] }
  | .closeRuntime modelName _ (some r), .raises error => some ((s.close r).leave modelName (some error))
  | .finishUnload modelName e runtime, _ => some (s.finishUnload modelName e runtime)
  | _, _ => none

/-- Before the first call. -/
def init (settings : AppSettings) : RouterState where
  engine := .init settings
  runtimeTable := fun _ => { modelName := "" }
  executorTable := fun _ => ⟨"", 0, .init (.new "" true 1 settings.fairness 1)⟩

end RouterState

/-- What callers from outside begin with: the engine's methods, and the methods
of a handle that `stream` returned. -/
def RouterTask.entry : RouterTask → Bool
  | .stream _ | .loadModel _ _ | .unloadModel _ => true
  | .executor _ .snapshot | .executor _ (.cancel _) | .executor _ (.readEvent _) => true
  | .executor _ (.addTerminalCallback _ (.other _)) => true
  | _ => false

/-- The threads around the engine. -/
def routerProgram : Threads.Program RouterState RouterTask RouterInput where
  run := RouterState.run
  entry := RouterTask.entry

/-- A new engine: its constructor goes on to load the enabled models, one after
the other, whatever becomes of each. -/
def RouterState.start (settings : AppSettings) : Threads.Config RouterState RouterTask where
  state := .init settings
  threads := [(settings.models.entries.filter fun entry => entry.2.enabled).map fun entry =>
    .loadModel entry.1 none]

end TtsPool
