/-
# What the client does not see

An exception that `_status_for_error` makes `INTERNAL` reaches the client as one
text, so what it is and says should not matter to anything the client sees.  It
travels through every layer on its way, from the worker's frame into the handle,
out of a read and into the handler, and other code of each layer looks at the
handle in the meantime.  `conceal` takes all these exceptions for one, in every
place where one can be, and `view` what is left of a state.  No task does more
with such an exception than pass it on (`run_view`), so two runs that start alike
look alike to the client as long as their runtimes look alike (`runs_view`).
-/

import TtsPool.Synthesis.Steps

namespace TtsPool

open Threads (Effect Config Action)

/-- All exceptions that are `INTERNAL` to the client, as one.  Where the handler asks for
the text and gets an exception, it is not what the client sees. -/
def EngineError.conceal : EngineError → EngineError
  | .runtimeError _ | .other _ _ => .runtimeError ""
  | error => error

/-- An exception that is `INTERNAL` to the client. -/
def EngineError.Internal (error : EngineError) : Prop :=
  (statusForError error).1 = .internal ∧ error.Printable

@[simp] theorem EngineError.conceal_conceal (error : EngineError) : error.conceal.conceal = error.conceal := by
  cases error <;> rfl

/-- The client's end of the RPC does not tell them apart. -/
theorem EngineError.Internal.conceal {error : EngineError} (h : error.Internal) :
    error.conceal = .runtimeError "" := by
  cases error with
  | runtimeError message => rfl
  | other className message => rfl
  | unprintable className raisedClassName raisedMessage => cases h.2
  | _ => cases h.1

/-- A coroutine only turns one of them into another. -/
@[simp] theorem EngineError.conceal_throughCoroutine (error : EngineError) :
    error.throughCoroutine.conceal = error.conceal := by
  unfold throughCoroutine
  split <;> rfl

theorem EngineError.internal_throughCoroutine {error : EngineError} :
    error.throughCoroutine.Internal ↔ error.Internal := by
  unfold throughCoroutine
  split
  · exact ⟨fun _ => ⟨rfl, rfl⟩, fun _ => ⟨rfl, rfl⟩⟩
  · exact Iff.rfl

/-- What its client is told. -/
theorem EngineError.Internal.status {error : EngineError} (h : error.Internal) :
    statusForError error = (.internal, "synthesis_failed") ∧ error.isSynthesisCancelled = false := by
  cases error with
  | runtimeError message => exact ⟨rfl, rfl⟩
  | other className message => exact ⟨rfl, rfl⟩
  | unprintable className raisedClassName raisedMessage => cases h.2
  | _ => cases h.1

/-! ### The handle -/

namespace SynthesisHandle

/-- A handle whose error is seen so. -/
def conceal (handle : SynthesisHandle) : SynthesisHandle :=
  { handle with error := handle.error.map EngineError.conceal }

@[simp] theorem conceal_conceal (handle : SynthesisHandle) : handle.conceal.conceal = handle.conceal := by
  simp [conceal, Function.comp_def]

end SynthesisHandle

/-- An operation that finishes with an error that is seen so. -/
def StreamOp.conceal : StreamOp → StreamOp
  | .finish event error => .finish event (error.map EngineError.conceal)
  | op => op

namespace SynthesisHandle

theorem raiseIfStopped_conceal (handle : SynthesisHandle) :
    handle.conceal.raiseIfStopped = handle.raiseIfStopped.map EngineError.conceal := by
  unfold raiseIfStopped
  by_cases hcancelled : handle.cancelled = true
  · rw [if_pos hcancelled, if_pos (show handle.conceal.cancelled = true from hcancelled)]
    rfl
  · rw [if_neg hcancelled, if_neg (show ¬ handle.conceal.cancelled = true from hcancelled)]
    by_cases hend : handle.terminal = true
    · rw [if_pos hend, if_pos (show handle.conceal.terminal = true from hend), conceal]
      cases handle.error <;> rfl
    · rw [if_neg hend, if_neg (show ¬ handle.conceal.terminal = true from hend)]
      rfl

/-- A result, its error seen so. -/
def concealResult {α β : Type} (f : α → β) : Except EngineError α → Except EngineError β
  | .ok a => .ok (f a)
  | .error error => .error error.conceal

theorem emitStarted_conceal (handle : SynthesisHandle) (sampleRateHz channelCount : ℤ) :
    handle.conceal.emitStarted sampleRateHz channelCount =
      concealResult conceal (handle.emitStarted sampleRateHz channelCount) := by
  simp only [emitStarted, appendControl, raiseIfStopped_conceal]
  cases handle.raiseIfStopped <;> rfl

theorem emitAudio_conceal (handle : SynthesisHandle) (event : StreamAudioChunk) (remaining : ℚ) :
    handle.conceal.emitAudio event remaining =
      concealResult (Option.map conceal) (handle.emitAudio event remaining) := by
  have hfull : handle.conceal.Full event.pcm.length ↔ handle.Full event.pcm.length := Iff.rfl
  have hbytes : handle.conceal.maxBufferBytes = handle.maxBufferBytes := rfl
  simp only [emitAudio, raiseIfStopped_conceal, hfull, hbytes]
  split_ifs with hsize
  · rfl
  all_goals cases handle.raiseIfStopped <;> rfl

theorem popEvent_conceal (handle : SynthesisHandle) :
    handle.conceal.popEvent = (handle.popEvent.1.conceal, concealResult id handle.popEvent.2) := by
  unfold popEvent
  by_cases hcancelled : handle.cancelled = true
  · rw [if_pos hcancelled, if_pos (show handle.conceal.cancelled = true from hcancelled)]
    rfl
  · rw [if_neg hcancelled, if_neg (show ¬ handle.conceal.cancelled = true from hcancelled)]
    rw [show handle.conceal.events = handle.events from rfl,
      show handle.conceal.error = handle.error.map EngineError.conceal from rfl]
    cases hevents : handle.events with
    | nil =>
      cases herror : handle.error <;> simp [concealResult]
    | cons event events =>
      cases event <;> rfl

/-- **The operations pass the error on.** -/
theorem after_conceal (handle : SynthesisHandle) (op : StreamOp) :
    handle.conceal.after op.conceal = (handle.after op).conceal := by
  cases op with
  | markDispatched queueWaitMs => rfl
  | setCancelCallback callback =>
    simp only [StreamOp.conceal, after, setCancelCallback]
    split_ifs <;> first | rfl | contradiction
  | addTerminalCallback callback =>
    simp only [StreamOp.conceal, after, addTerminalCallback]
    split_ifs <;> first | rfl | contradiction
  | cancel =>
    simp only [StreamOp.conceal, after, cancel]
    split_ifs <;> first | rfl | contradiction
  | emitStarted sampleRateHz channelCount =>
    simp only [StreamOp.conceal, after, emitStarted_conceal]
    cases handle.emitStarted sampleRateHz channelCount <;> rfl
  | emitAudio event remaining =>
    simp only [StreamOp.conceal, after, emitAudio_conceal]
    rcases handle.emitAudio event remaining with error | _ | handle' <;> rfl
  | finish event error =>
    simp only [StreamOp.conceal, after, finish]
    split_ifs <;> first | rfl | contradiction
  | read =>
    have hreadable : handle.conceal.Readable ↔ handle.Readable := Iff.rfl
    simp only [StreamOp.conceal, after, hreadable, popEvent_conceal]
    split_ifs <;> rfl

end SynthesisHandle

/-! ### The synthesis -/

/-- A task of the handle's, its error seen so. -/
def StreamTask.conceal : StreamTask → StreamTask
  | .fail error => .fail error.conceal
  | .finish event error => .finish event (error.map EngineError.conceal)
  | task => task

/-- A task, the exception it has in hand seen so. -/
def SynthesisTask.conceal : SynthesisTask → SynthesisTask
  | .handle task => .handle task.conceal
  | .release (some (.error error)) => .release (some (.error error.conceal))
  | .failRpc error => .failRpc error.conceal
  | .classify error => .classify error.conceal
  | task => task

namespace SynthesisState

variable {backend : Backend} {s : SynthesisState} {task : SynthesisTask} {input : SynthesisInput}

/-- What is left of a state without the ledgers, the log and the counters, its
error seen so. -/
def view (s : SynthesisState) : SynthesisState where
  stream := { delivery := { handle := s.handle.conceal } }
  backendStartedAt := s.backendStartedAt
  receivedAt := s.receivedAt
  firstChunkWrittenAt := s.firstChunkWrittenAt
  sent := s.sent
  outcome := s.outcome

/-- What is seen of a step. -/
abbrev seen (e : Step) : Step := e.map view SynthesisTask.conceal

/-- Two states that are seen alike. -/
theorem view_congr {s s' : SynthesisState} (hhandle : s.handle.conceal = s'.handle.conceal)
    (h : s.backendStartedAt = s'.backendStartedAt ∧ s.receivedAt = s'.receivedAt ∧
      s.firstChunkWrittenAt = s'.firstChunkWrittenAt ∧ s.sent = s'.sent ∧ s.outcome = s'.outcome) :
    s.view = s'.view := by
  obtain ⟨hstarted, hreceived, hwritten, hsent, houtcome⟩ := h
  simp only [view, hhandle, hstarted, hreceived, hwritten, hsent, houtcome]

@[simp] theorem view_view (s : SynthesisState) : s.view.view = s.view :=
  view_congr s.handle.conceal_conceal ⟨rfl, rfl, rfl, rfl, rfl⟩

theorem handle_view_perform (s : SynthesisState) (op : StreamOp) :
    (s.view.perform op.conceal).handle.conceal = (s.perform op).handle.conceal := by
  show (s.handle.conceal.after op.conceal).conceal = (s.handle.after op).conceal
  rw [s.handle.after_conceal op, SynthesisHandle.conceal_conceal]

theorem view_perform (s : SynthesisState) (op : StreamOp) : (s.view.perform op.conceal).view = (s.perform op).view :=
  view_congr (s.handle_view_perform op) ⟨rfl, rfl, rfl, rfl, rfl⟩

/-- Two steps that are seen alike. -/
theorem seen_congr {s s' : SynthesisState} {next next' : List SynthesisTask} (hs : s.view = s'.view)
    (hnext : next.map SynthesisTask.conceal = next'.map SynthesisTask.conceal) :
    seen { state := s, next := next } = seen { state := s', next := next' } := by
  simp only [seen, Effect.map, hs, hnext]

theorem unlessCancelled_view (s : SynthesisState) (message : String) (task' : SynthesisTask) :
    seen (s.view.unlessCancelled message task') = seen (s.unlessCancelled message task') :=
  seen_congr s.view_view rfl

theorem callServer_view (s : SynthesisState) (call : ModelCall) (raises : Option LibraryError)
    (task' : SynthesisTask) : seen (s.view.callServer call raises task') = seen (s.callServer call raises task') := by
  cases raises with
  | none => exact seen_congr s.view_view rfl
  | some error => exact seen_congr (view_congr s.handle.conceal_conceal ⟨rfl, rfl, rfl, rfl, rfl⟩) rfl

theorem emitStarted_view (s : SynthesisState) (sampleRateHz channelCount : ℤ) (task' : SynthesisTask) :
    seen (s.view.emitStarted sampleRateHz channelCount task') =
      seen (s.emitStarted sampleRateHz channelCount task') := by
  refine seen_congr (s.view_perform (.emitStarted sampleRateHz channelCount)) ?_
  rw [show s.view.handle.emitStarted sampleRateHz channelCount = _ from
    s.handle.emitStarted_conceal sampleRateHz channelCount]
  cases s.handle.emitStarted sampleRateHz channelCount with
  | ok handle => rfl
  | error error => simp [SynthesisHandle.concealResult, SynthesisTask.conceal]

theorem emitAudio_view (s : SynthesisState) (event : StreamAudioChunk) (remaining : ℚ) (again task' : SynthesisTask) :
    seen (s.view.emitAudio event remaining again task') = seen (s.emitAudio event remaining again task') := by
  refine seen_congr (s.view_perform (.emitAudio event remaining)) ?_
  rw [show s.view.handle.emitAudio event remaining = _ from s.handle.emitAudio_conceal event remaining]
  rcases s.handle.emitAudio event remaining with error | _ | handle
  · simp [SynthesisHandle.concealResult, SynthesisTask.conceal]
  · rfl
  · rfl

/-- Changes to what is not seen. -/
theorem view_same {s' s'' : SynthesisState} (hhandle : s'.handle = s.view.handle) (hhandle' : s''.handle = s.handle)
    (h : s'.backendStartedAt = s''.backendStartedAt ∧ s'.receivedAt = s''.receivedAt ∧
      s'.firstChunkWrittenAt = s''.firstChunkWrittenAt ∧ s'.sent = s''.sent ∧ s'.outcome = s''.outcome) :
    s'.view = s''.view :=
  view_congr (by rw [hhandle, hhandle']; exact s.handle.conceal_conceal) h

theorem runHandle_view (s : SynthesisState) (task : StreamTask) (remaining : ℚ) :
    (s.view.runHandle task.conceal remaining).map seen = (s.runHandle task remaining).map seen := by
  have hperform : ∀ op : StreamOp, ∀ logs logs' : List RpcLog,
      (({ s.view with stream := s.view.stream.perform op.conceal } : SynthesisState).log logs).view =
        (({ s with stream := s.stream.perform op } : SynthesisState).log logs').view :=
    fun op _ _ => view_congr (s.handle_view_perform op) ⟨rfl, rfl, rfl, rfl, rfl⟩
  cases task with
  | markDispatched queueWaitMs => exact congrArg some (seen_congr (hperform (.markDispatched queueWaitMs) [] []) rfl)
  | setCancelCallback callback => exact congrArg some (seen_congr (hperform (.setCancelCallback callback) [] []) rfl)
  | addTerminalCallback callback =>
    refine congrArg some (seen_congr (hperform (.addTerminalCallback callback) [] []) ?_)
    have hflag : (s.view.handle.addTerminalCallback callback).2 = (s.handle.addTerminalCallback callback).2 := by
      have hend : s.view.handle.terminal = s.handle.terminal := rfl
      simp only [SynthesisHandle.addTerminalCallback, hend]
      split_ifs <;> rfl
    simp only [StreamState.addTerminalCallback, show s.view.stream.handle = s.view.handle from rfl, hflag]
  | cancel => exact congrArg some (seen_congr (hperform .cancel [] []) rfl)
  | emitStarted sampleRateHz channelCount =>
    exact congrArg some (seen_congr (hperform (.emitStarted sampleRateHz channelCount) [] []) rfl)
  | emitAudio event =>
    refine congrArg some (seen_congr (hperform (.emitAudio event remaining) [] []) ?_)
    simp only [StreamState.emitAudio]
    rw [show s.view.stream.handle.emitAudio event remaining = _ from s.handle.emitAudio_conceal event remaining]
    rcases s.handle.emitAudio event remaining with error | _ | handle <;> rfl
  | complete result metrics =>
    refine congrArg some (seen_congr (view_same rfl rfl ⟨rfl, rfl, rfl, rfl, rfl⟩) ?_)
    simp only [StreamState.complete]
    rfl
  | combineMetrics result metrics =>
    exact congrArg some (seen_congr (view_same rfl rfl ⟨rfl, rfl, rfl, rfl, rfl⟩) rfl)
  | fail error =>
    refine congrArg some (seen_congr (view_same rfl rfl ⟨rfl, rfl, rfl, rfl, rfl⟩) ?_)
    simp [SynthesisTask.conceal, StreamTask.conceal]
  | finish event error =>
    refine congrArg some (seen_congr (hperform (.finish event error) [] []) ?_)
    have hcallbacks : (s.view.handle.finish event (error.map EngineError.conceal)).2 =
        (s.handle.finish event error).2 := by
      have hend : s.view.handle.terminal = s.handle.terminal := rfl
      simp only [SynthesisHandle.finish, hend]
      split_ifs <;> rfl
    simp only [StreamState.finish, show s.view.stream.handle = s.view.handle from rfl, hcallbacks]
  | runTerminalCallbacks callbacks =>
    cases callbacks with
    | nil => exact congrArg some (seen_congr (view_same rfl rfl ⟨rfl, rfl, rfl, rfl, rfl⟩) rfl)
    | cons callback callbacks => exact congrArg some (seen_congr (view_same rfl rfl ⟨rfl, rfl, rfl, rfl, rfl⟩) rfl)
  | readEvent =>
    have hreadable : s.view.stream.handle.Readable ↔ s.stream.handle.Readable := Iff.rfl
    simp only [runHandle, StreamTask.conceal, StreamState.run, hreadable]
    split_ifs
    · exact congrArg some (seen_congr (hperform .read [] []) rfl)
    · rfl

theorem readEvent_view (s : SynthesisState) (input : SynthesisInput) :
    (s.view.readEvent input).map seen = (s.readEvent input).map seen := by
  have hreadable : s.view.handle.Readable ↔ s.handle.Readable := Iff.rfl
  simp only [readEvent, hreadable]
  split_ifs
  · exact congrArg some (seen_congr s.view_view rfl)
  · refine congrArg some (seen_congr (s.view_perform .read) ?_)
    rw [show s.view.handle.popEvent = _ from s.handle.popEvent_conceal]
    rcases s.handle.popEvent.2 with error | _ | event
    · simp [SynthesisHandle.concealResult, SynthesisTask.conceal]
    · rfl
    · cases event <;> rfl
  · rfl

/-- The handler does the same with an exception whatever else the state holds. -/
theorem classify_same (s : SynthesisState) (error : EngineError) :
    seen (s.view.classify error) = seen (s.classify error) := by
  unfold SynthesisState.classify
  cases error.str with
  | error raised => exact seen_congr (view_same rfl rfl ⟨rfl, rfl, rfl, rfl, rfl⟩) rfl
  | ok text => exact seen_congr (view_same rfl rfl ⟨rfl, rfl, rfl, rfl, rfl⟩) rfl

theorem classify_view (s : SynthesisState) (error : EngineError) :
    seen (s.view.classify error.conceal) = seen (s.classify error) := by
  cases error with
  | runtimeError | other => exact seen_congr (view_same rfl rfl ⟨rfl, rfl, rfl, rfl, rfl⟩) rfl
  | _ => exact s.classify_same _

/-- **No task does more with such an exception than pass it on.** -/
theorem run_view (backend : Backend) (s : SynthesisState) (task : SynthesisTask) (input : SynthesisInput) :
    (SynthesisState.run backend s.view task.conceal input).map seen =
      (SynthesisState.run backend s task input).map seen := by
  cases task with
  | handle task => exact s.runHandle_view task input.remaining
  | runJob queueWaitMs =>
    refine congrArg some (seen_congr (view_congr ?_ ⟨rfl, rfl, rfl, rfl, rfl⟩) rfl)
    exact s.handle_view_perform (.markDispatched queueWaitMs)
  | checkDispatch | checkPrepared | checkGeneration | checkEncoded | checkChunk =>
    exact congrArg some (s.unlessCancelled_view _ _)
  | runBackend =>
    cases backend <;> exact congrArg some (seen_congr (view_same rfl rfl ⟨rfl, rfl, rfl, rfl, rfl⟩) rfl)
  | release outcome =>
    rcases outcome with _ | error | result
    · exact congrArg some (seen_congr s.view_view rfl)
    · refine congrArg some (seen_congr (view_same rfl rfl ⟨rfl, rfl, rfl, rfl, rfl⟩) ?_)
      simp [SynthesisTask.conceal, StreamTask.conceal]
    · exact congrArg some (seen_congr s.view_view rfl)
  | startedSink sampleRateHz => exact congrArg some (s.emitStarted_view _ _ _)
  | encodeLatents sampleRateHz =>
    cases hcall : backend.streamFn with
    | none => simp [run, SynthesisTask.conceal, hcall]
    | some call =>
      simp only [run, SynthesisTask.conceal, hcall, Option.map_some, Option.some.injEq]
      exact s.callServer_view _ _ _
  | generate sampleRateHz =>
    cases hcall : backend.streamFn with
    | none => simp [run, SynthesisTask.conceal, hcall]
    | some call =>
      simp only [run, SynthesisTask.conceal, hcall, Option.map_some, Option.some.injEq]
      exact s.callServer_view _ _ _
  | nextChunk sampleRateHz chunkCount totalSampleCount chunks =>
    cases hcall : backend.streamFn with
    | none => simp [run, SynthesisTask.conceal, hcall]
    | some call =>
      simp only [run, SynthesisTask.conceal, hcall, Option.map_some, Option.some.injEq]
      cases chunks with
      | cons samples chunks => exact seen_congr s.view_view rfl
      | nil =>
        simp only [SynthesisState.nextChunk]
        split
        · exact seen_congr (view_same rfl rfl ⟨rfl, rfl, rfl, rfl, rfl⟩) rfl
        · exact s.callServer_view _ _ _
  | chunkSink => exact congrArg some (s.emitAudio_view _ _ _ _)
  | emitFrames => exact congrArg some (s.emitAudio_view _ _ _ _)
  | emitResult result =>
    refine congrArg some ?_
    have hbytes : s.view.handle.maxBufferBytes = s.handle.maxBufferBytes := rfl
    simp only [SynthesisState.emitResult, hbytes]
    cases openResult result s.handle.maxBufferBytes with
    | error error => exact seen_congr s.view_view rfl
    | ok opened => exact s.emitStarted_view _ _ _
  | readFrames => exact congrArg some (seen_congr s.view_view rfl)
  | readEvent => exact s.readEvent_view input
  | returnEmpty => exact congrArg some (seen_congr (view_same rfl rfl ⟨rfl, rfl, rfl, rfl, rfl⟩) rfl)
  | send event =>
    refine congrArg some ?_
    simp only [SynthesisState.send]
    split
    · exact seen_congr s.view_view rfl
    · exact seen_congr (view_same rfl rfl ⟨rfl, rfl, rfl, rfl, rfl⟩) rfl
  | resume event =>
    refine congrArg some ?_
    simp only [SynthesisState.resume]
    split_ifs
    · exact seen_congr (view_same rfl rfl ⟨rfl, rfl, rfl, rfl, rfl⟩) rfl
    · cases event with
      | started event => exact seen_congr s.view_view rfl
      | audio event => exact seen_congr (view_same rfl rfl ⟨rfl, rfl, rfl, rfl, rfl⟩) rfl
      | completed event => exact seen_congr (view_same rfl rfl ⟨rfl, rfl, rfl, rfl, rfl⟩) rfl
  | clientCancelled => exact congrArg some (seen_congr (view_same rfl rfl ⟨rfl, rfl, rfl, rfl, rfl⟩) rfl)
  | raiseCancelled => exact congrArg some (seen_congr (view_same rfl rfl ⟨rfl, rfl, rfl, rfl, rfl⟩) rfl)
  | failRpc error =>
    refine congrArg some (seen_congr s.view_view ?_)
    simp [SynthesisTask.conceal, StreamTask.conceal]
  | classify error => exact congrArg some (s.classify_view error)
  | abort => exact congrArg some (seen_congr (view_same rfl rfl ⟨rfl, rfl, rfl, rfl, rfl⟩) rfl)

/-- **Two runs that look alike.**  Runtimes whose steps are seen alike, wherever
they are taken, are seen alike over every schedule. -/
theorem runs_view {backend' : Backend}
    (hseen : ∀ s task input, (SynthesisState.run backend s task input).map seen =
      (SynthesisState.run backend' s task input).map seen)
    (c : Config SynthesisState SynthesisTask) (actions : List (Action SynthesisTask SynthesisInput)) :
    ((synthesisProgram backend).runs c actions).state.view =
      ((synthesisProgram backend').runs c actions).state.view := by
  have hrun : ∀ s₁ s₂ task₁ task₂ input, s₁.view = s₂.view → SynthesisTask.conceal task₁ = task₂.conceal →
      ((synthesisProgram backend).run s₁ task₁ input).map seen =
        ((synthesisProgram backend').run s₂ task₂ input).map seen := by
    intro s₁ s₂ task₁ task₂ input hs htask
    calc (SynthesisState.run backend s₁ task₁ input).map seen
        = (SynthesisState.run backend s₁.view task₁.conceal input).map seen := (run_view ..).symm
      _ = (SynthesisState.run backend s₂.view task₂.conceal input).map seen := by rw [hs, htask]
      _ = (SynthesisState.run backend s₂ task₂ input).map seen := run_view ..
      _ = (SynthesisState.run backend' s₂ task₂ input).map seen := hseen s₂ task₂ input
  have hruns := Threads.Program.runs_map_eq (f := view) (g := SynthesisTask.conceal)
    (p := synthesisProgram backend) (q := synthesisProgram backend') (fun _ => rfl) hrun
    (rfl : c.map view SynthesisTask.conceal = c.map view SynthesisTask.conceal) actions
  exact congrArg Config.state hruns

end SynthesisState

end TtsPool
