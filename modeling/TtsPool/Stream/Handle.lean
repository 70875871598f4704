/-
# The synthesis handle

`SynthesisHandle` of `app/engine/streaming.py`: the bounded buffer of events
between the worker that synthesizes and the reader that sends, the cancelled
flag, the terminal flag with its error, and the callbacks.  Every function here
is one section under the handle's lock; what a method does between two such
sections is the business of the threads that run it.

A callback is a closure in the source.  Here it is what the closure captured:
the cancel callback the job it cancels, a terminal callback the model whose
count of requests it lowers.  The futures of asynchronous readers are left out:
waking one moves none of the fields.
-/

import TtsPool.Common
import TtsPool.Support.Dict
import TtsPool.Fair.Queue

namespace TtsPool

/-- A value of a result's metadata. -/
inductive MetadataValue where
  | null
  | bool (value : Bool)
  | number (value : ℚ)
  | text (value : String)
deriving DecidableEq

/-- `StreamStarted`. -/
structure StreamStarted where
  responseId : String
  model : String
  sampleRateHz : ℤ
  channelCount : ℤ
  encoding : String
  schedulerQueueWaitMs : ℚ
deriving DecidableEq

/-- `StreamAudioChunk`. -/
structure StreamAudioChunk where
  sequenceNumber : ℤ
  firstSample : ℤ
  pcm : List UInt8
deriving DecidableEq

/-- `RuntimeStreamResult`. -/
structure RuntimeStreamResult where
  totalSampleCount : ℤ
  durationMs : ℤ
  chunkCount : ℤ
  metrics : Dict String (Option ℚ) := Dict.empty
  metadata : Dict String MetadataValue := Dict.empty

/-- `StreamCompleted`, which has the fields of the runtime's result. -/
abbrev StreamCompleted := RuntimeStreamResult

/-- `StreamEvent`. -/
inductive StreamEvent where
  | started (event : StreamStarted)
  | audio (event : StreamAudioChunk)
  | completed (event : StreamCompleted)

/-- A terminal callback: the router's `_stream_finished` of a model, or any
other. -/
inductive TerminalCallback where
  | streamFinished (modelName : String)
  | other (id : ℕ)
deriving DecidableEq

/-- `SynthesisHandle`. -/
structure SynthesisHandle where
  responseId : String
  modelName : String
  createdAt : ℚ
  maxBufferChunks : ℕ
  maxBufferBytes : ℕ
  stalledConsumerTimeoutS : ℚ
  schedulerQueueWaitMs : ℚ := 0
  dispatched : Bool := false
  events : List StreamEvent := []
  bufferedAudioChunks : ℤ := 0
  bufferedAudioBytes : ℤ := 0
  maximumBufferedAudioChunks : ℤ := 0
  maximumBufferedAudioBytes : ℤ := 0
  terminal : Bool := false
  error : Option EngineError := none
  cancelled : Bool := false
  cancelCallback : Option SchedulerJob := none
  terminalCallbacks : List TerminalCallback := []

namespace SynthesisHandle

/-- The constructor, with its lower bounds on the limits. -/
def new (responseId modelName : String) (createdAt : ℚ) (maxBufferChunks maxBufferBytes : ℤ)
    (stalledConsumerTimeoutS : ℚ) : SynthesisHandle where
  responseId := responseId
  modelName := modelName
  createdAt := createdAt
  maxBufferChunks := (max 1 maxBufferChunks).toNat
  maxBufferBytes := (max 1 maxBufferBytes).toNat
  stalledConsumerTimeoutS := max (1 / 1000) stalledConsumerTimeoutS

/-- `mark_dispatched`. -/
def markDispatched (handle : SynthesisHandle) (queueWaitMs : ℚ) : SynthesisHandle :=
  { handle with schedulerQueueWaitMs := max 0 queueWaitMs, dispatched := true }

/-- `set_cancel_callback`, and whether the caller has to call it now. -/
def setCancelCallback (handle : SynthesisHandle) (callback : SchedulerJob) : SynthesisHandle × Bool :=
  if handle.cancelled then (handle, true) else ({ handle with cancelCallback := some callback }, false)

/-- `add_terminal_callback`, and whether the caller has to call it now. -/
def addTerminalCallback (handle : SynthesisHandle) (callback : TerminalCallback) : SynthesisHandle × Bool :=
  if handle.terminal then (handle, true)
  else ({ handle with terminalCallbacks := handle.terminalCallbacks ++ [callback] }, false)

/-- `cancel`, and the callback the caller has to call. -/
def cancel (handle : SynthesisHandle) : SynthesisHandle × Option SchedulerJob :=
  if handle.terminal ∨ handle.cancelled then (handle, none)
  else ({ handle with cancelled := true }, handle.cancelCallback)

/-- `_raise_if_stopped_locked`: the exception a producer meets. -/
def raiseIfStopped (handle : SynthesisHandle) : Option EngineError :=
  if handle.cancelled then some (.synthesisCancelled "synthesis was cancelled")
  else if handle.terminal then
    some (handle.error.getD (.synthesisCancelled "synthesis stream is closed"))
  else none

/-- `_append_control`. -/
def appendControl (handle : SynthesisHandle) (event : StreamEvent) : Except EngineError SynthesisHandle :=
  match handle.raiseIfStopped with
  | some error => .error error
  | none => .ok { handle with events := handle.events ++ [event] }

/-- `emit_started`. -/
def emitStarted (handle : SynthesisHandle) (sampleRateHz channelCount : ℤ) :
    Except EngineError SynthesisHandle :=
  handle.appendControl (.started
    { responseId := handle.responseId
      model := handle.modelName
      sampleRateHz := sampleRateHz
      channelCount := channelCount
      encoding := "pcm_s16le"
      schedulerQueueWaitMs := handle.schedulerQueueWaitMs })

/-- The buffer has no room for so many more bytes of audio. -/
def Full (handle : SynthesisHandle) (eventBytes : ℕ) : Prop :=
  (handle.maxBufferChunks : ℤ) ≤ handle.bufferedAudioChunks ∨
    (handle.maxBufferBytes : ℤ) < handle.bufferedAudioBytes + eventBytes

instance (handle : SynthesisHandle) (eventBytes : ℕ) : Decidable (handle.Full eventBytes) :=
  inferInstanceAs (Decidable (_ ∨ _))

/-- An audio chunk appended and counted. -/
def appendAudio (handle : SynthesisHandle) (event : StreamAudioChunk) : SynthesisHandle :=
  { handle with
    events := handle.events ++ [.audio event]
    bufferedAudioChunks := handle.bufferedAudioChunks + 1
    bufferedAudioBytes := handle.bufferedAudioBytes + event.pcm.length
    maximumBufferedAudioChunks := max handle.maximumBufferedAudioChunks (handle.bufferedAudioChunks + 1)
    maximumBufferedAudioBytes :=
      max handle.maximumBufferedAudioBytes (handle.bufferedAudioBytes + event.pcm.length) }

/-- One look at the buffer by `emit_audio`, after its check of the chunk's own
size: `none` to wait, when `remaining` seconds are left. -/
def emitAudio (handle : SynthesisHandle) (event : StreamAudioChunk) (remaining : ℚ) :
    Except EngineError (Option SynthesisHandle) :=
  if handle.maxBufferBytes < event.pcm.length then
    .error (.streamConsumerStalled "one audio chunk exceeds the configured stream buffer")
  else
    match handle.raiseIfStopped with
    | some error => .error error
    | none =>
      if handle.Full event.pcm.length then
        if remaining ≤ 0 then
          .error (.streamConsumerStalled "stream consumer did not drain its audio buffer")
        else .ok none
      else .ok (some (handle.appendAudio event))

/-- The event of a completed synthesis, with the buffer's maxima among its
metrics. -/
def completedEvent (handle : SynthesisHandle) (result : RuntimeStreamResult)
    (metrics : Dict String (Option ℚ)) : StreamEvent :=
  .completed
    { result with
      metrics := (metrics.set "stream_max_buffered_chunks" (some handle.maximumBufferedAudioChunks)).set
        "stream_max_buffered_bytes" (some handle.maximumBufferedAudioBytes) }

/-- `_finish`, and the callbacks the caller has to run. -/
def finish (handle : SynthesisHandle) (event : Option StreamEvent) (error : Option EngineError) :
    SynthesisHandle × List TerminalCallback :=
  if handle.terminal then (handle, [])
  else
    ({ handle with
        events := handle.events ++ event.toList
        error := error
        terminal := true
        terminalCallbacks := [] }, handle.terminalCallbacks)

/-- `read_event` has something to say. -/
def Readable (handle : SynthesisHandle) : Prop :=
  handle.events.isEmpty = false ∨ handle.terminal = true ∨ handle.cancelled = true

instance (handle : SynthesisHandle) : Decidable handle.Readable := inferInstanceAs (Decidable (_ ∨ _))

/-- `_pop_event_locked`. -/
def popEvent (handle : SynthesisHandle) : SynthesisHandle × Except EngineError (Option StreamEvent) :=
  if handle.cancelled then (handle, .error (.synthesisCancelled "synthesis was cancelled"))
  else
    match handle.events with
    | .audio event :: events =>
      ({ handle with
          events := events
          bufferedAudioChunks := handle.bufferedAudioChunks - 1
          bufferedAudioBytes := handle.bufferedAudioBytes - event.pcm.length }, .ok (some (.audio event)))
    | event :: events => ({ handle with events := events }, .ok (some event))
    | [] =>
      match handle.error with
      | some error => (handle, .error error)
      | none => (handle, .ok none)

/-! ### What the methods leave alone -/

/-- Nothing has happened to how the handle ends: not to the flag, not to the
callbacks. -/
structure SameEnding (handle handle' : SynthesisHandle) : Prop where
  terminal : handle'.terminal = handle.terminal
  cancelCallback : handle'.cancelCallback = handle.cancelCallback
  terminalCallbacks : handle'.terminalCallbacks = handle.terminalCallbacks

theorem SameEnding.refl (handle : SynthesisHandle) : handle.SameEnding handle := ⟨rfl, rfl, rfl⟩

theorem markDispatched_ending (handle : SynthesisHandle) (queueWaitMs : ℚ) :
    handle.SameEnding (handle.markDispatched queueWaitMs) := ⟨rfl, rfl, rfl⟩

theorem cancel_ending (handle : SynthesisHandle) : handle.SameEnding handle.cancel.1 := by
  unfold cancel
  split_ifs
  · exact .refl handle
  · exact ⟨rfl, rfl, rfl⟩

/-- What `cancel` hands back is the callback that was set. -/
theorem cancel_callback {handle : SynthesisHandle} {job : SchedulerJob}
    (h : handle.cancel.2 = some job) : handle.cancelCallback = some job := by
  unfold cancel at h
  split_ifs at h
  exact h

theorem popEvent_ending (handle : SynthesisHandle) : handle.SameEnding handle.popEvent.1 := by
  unfold popEvent
  split_ifs
  · exact .refl handle
  · split
    · exact ⟨rfl, rfl, rfl⟩
    · exact ⟨rfl, rfl, rfl⟩
    · split <;> exact .refl handle

theorem emitStarted_ending {handle handle' : SynthesisHandle} {sampleRateHz channelCount : ℤ}
    (h : handle.emitStarted sampleRateHz channelCount = .ok handle') : handle.SameEnding handle' := by
  unfold emitStarted appendControl at h
  cases hstop : handle.raiseIfStopped with
  | some error => simp [hstop] at h
  | none =>
    simp only [hstop, Except.ok.injEq] at h
    exact h ▸ ⟨rfl, rfl, rfl⟩

theorem emitAudio_ending {handle handle' : SynthesisHandle} {event : StreamAudioChunk} {remaining : ℚ}
    (h : handle.emitAudio event remaining = .ok (some handle')) : handle.SameEnding handle' := by
  unfold emitAudio at h
  cases hstop : handle.raiseIfStopped with
  | some error =>
    simp only [hstop] at h
    split_ifs at h
  | none =>
    simp only [hstop] at h
    split_ifs at h
    · cases h
    · simp only [Except.ok.injEq, Option.some.injEq] at h
      exact h ▸ ⟨rfl, rfl, rfl⟩

theorem setCancelCallback_spec (handle : SynthesisHandle) (callback : SchedulerJob) :
    let handle' := (handle.setCancelCallback callback).1
    handle'.terminal = handle.terminal ∧ handle'.terminalCallbacks = handle.terminalCallbacks ∧
      ∀ job, handle'.cancelCallback = some job → handle.cancelCallback = some job ∨ job = callback := by
  unfold setCancelCallback
  split_ifs
  · exact ⟨rfl, rfl, fun job => .inl⟩
  · exact ⟨rfl, rfl, fun job h => .inr (Option.some.inj h).symm⟩

theorem addTerminalCallback_spec (handle : SynthesisHandle) (callback : TerminalCallback) :
    let handle' := (handle.addTerminalCallback callback).1
    handle'.terminal = handle.terminal ∧ handle'.cancelCallback = handle.cancelCallback := by
  unfold addTerminalCallback
  split_ifs <;> exact ⟨rfl, rfl⟩

theorem finish_spec (handle : SynthesisHandle) (event : Option StreamEvent) (error : Option EngineError) :
    let handle' := (handle.finish event error).1
    handle'.terminal = true ∧ handle'.cancelCallback = handle.cancelCallback := by
  unfold finish
  split_ifs with h
  · exact ⟨h, rfl⟩
  · exact ⟨rfl, rfl⟩

end SynthesisHandle
end TtsPool
