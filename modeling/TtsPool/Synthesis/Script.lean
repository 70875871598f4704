/-
# What a worker that nothing stops emits

A runtime's worker emits a Started event and chunks of audio, and then reports a
count.  Which, is settled before it begins: it is the `Script` of its backend, the
sounds in their order and the outcome, and what a worker still has to do is the
rest of it (`Plays`).  Every step either keeps to the script or gives up with an
exception, and it gives up for a reason alone, that the stream was stopped, that
the deadline has passed, that a piece is too large, or that a call of the model
raises (`plays_of_run`).

So, under every interleaving, a stream that holds a Completed event has the whole
script before it, and reports the script's count (`runs_scripted`).
-/

import TtsPool.Support.Pieces
import TtsPool.Synthesis.Cutting

namespace TtsPool

open Threads (Effect Config Action)
open SynthesisHandle (appends)

/-- What an event tells of the sound. -/
inductive Sound where
  | started (sampleRateHz : ℤ)
  | audio (pcm : List UInt8)
deriving DecidableEq

def StreamEvent.sound? : StreamEvent → Option Sound
  | .started event => some (.started event.sampleRateHz)
  | .audio event => some (.audio event.pcm)
  | .completed _ => none

/-- What a stream tells of its sound. -/
def sounds (events : List StreamEvent) : List Sound := events.filterMap StreamEvent.sound?

theorem sounds_append (events more : List StreamEvent) : sounds (events ++ more) = sounds events ++ sounds more :=
  List.filterMap_append

/-- Sounds to be emitted, and the count reported after them, or the exception. -/
@[ext] structure Script where
  sounds : List Sound
  outcome : Except EngineError ℤ

namespace Script

/-- The rest of a script, and what comes before it. -/
def after (said : List Sound) (rest : Script) : Script := { rest with sounds := said ++ rest.sounds }

/-- Nothing more. -/
def ending (outcome : Except EngineError RuntimeStreamResult) : Script where
  sounds := []
  outcome := outcome.map RuntimeStreamResult.totalSampleCount

@[simp] theorem after_nil (rest : Script) : rest.after [] = rest := rfl

@[simp] theorem after_after (said more : List Sound) (rest : Script) :
    (rest.after more).after said = rest.after (said ++ more) := by
  simp [after]

theorem ending_after_inj {said : List Sound} {script : Script} {outcome : Except EngineError RuntimeStreamResult}
    (h : (ending outcome).after said = script) :
    script.sounds = said ∧ script.outcome = outcome.map RuntimeStreamResult.totalSampleCount := by
  subst h
  exact ⟨List.append_nil said, rfl⟩

end Script

/-- The loop over the chunks, from here. -/
def NanoVLLMCall.rest (call : NanoVLLMCall) (sampleRateHz : ℤ) (chunkCount totalSampleCount : ℕ)
    (chunks : List (List ℚ)) : Script where
  sounds := chunks.map fun samples => .audio (pcmBytes samples)
  outcome := (call.result sampleRateHz (chunkCount + chunks.length) (totalSampleCount + chunks.flatten.length)).map
    RuntimeStreamResult.totalSampleCount

/-- `_generate_pcm_async`. -/
def NanoVLLMCall.script (call : NanoVLLMCall) (sampleRateHz : ℤ) : Script :=
  (call.rest sampleRateHz 0 0 call.chunks).after [.started sampleRateHz]

/-- The pieces `readframes` gives. -/
def WaveEmission.pieces (emission : WaveEmission) (frames : List UInt8) : List (List UInt8) :=
  TtsPool.pieces (emission.framesPerChunk * emission.frameBytes) frames

/-- The loop over the frames, from here. -/
def WaveEmission.rest (emission : WaveEmission) (sequenceNumber firstSample : ℕ) (frames : List UInt8) :
    Script where
  sounds := (emission.pieces frames).map .audio
  outcome := (emission.finish (sequenceNumber + (emission.pieces frames).length)
    (firstSample + ((emission.pieces frames).map fun pcm => pcm.length / emission.frameBytes).sum)).map
    RuntimeStreamResult.totalSampleCount

/-- `_emit_complete_result`. -/
def EngineResult.script (result : EngineResult) (maxBufferBytes : ℕ) : Script :=
  match openResult result maxBufferBytes with
  | .error error => .ending (.error error)
  | .ok (emission, frames) => (emission.rest 0 0 frames).after [.started emission.sampleRateHz]

/-- The script of what a runtime without a `synthesize_stream` returns. -/
def completeScript (maxBufferBytes : ℕ) : Except EngineError EngineResult → Script
  | .error error => .ending (.error error)
  | .ok result => result.script maxBufferBytes

/-- **The script of a backend**, over a buffer of so many bytes. -/
def Backend.script (backend : Backend) (maxBufferBytes : ℕ) : Script :=
  match backend with
  | .nanovllm call =>
    match call.prepareSynthesis with
    | .error error => .ending (.error error)
    | .ok sampleRateHz => call.script sampleRateHz
  | .voxcpm2 call => completeScript maxBufferBytes call.synthesize
  | .kokoro call => completeScript maxBufferBytes call.synthesize
  | .completeOnly result => completeScript maxBufferBytes result

/-- What has been said and what the task is going to make the script; a method of the
handle that nobody calls is excluded. -/
def SynthesisTask.Plays (backend : Backend) (script : Script) (maxBufferBytes : ℕ) (said : List Sound) :
    SynthesisTask → Prop
  | .runJob _ | .checkDispatch | .runBackend => (backend.script maxBufferBytes).after said = script
  | .checkPrepared sampleRateHz | .checkGeneration sampleRateHz | .startedSink sampleRateHz =>
    ∃ call, backend.streamFn = some call ∧ (call.script sampleRateHz).after said = script
  | .encodeLatents sampleRateHz | .checkEncoded sampleRateHz | .generate sampleRateHz =>
    ∃ call, backend.streamFn = some call ∧ (call.rest sampleRateHz 0 0 call.chunks).after said = script
  | .nextChunk sampleRateHz chunkCount totalSampleCount chunks =>
    ∃ call, backend.streamFn = some call ∧
      (call.rest sampleRateHz chunkCount totalSampleCount chunks).after said = script
  | .checkChunk sampleRateHz chunkCount totalSampleCount samples chunks
  | .chunkSink sampleRateHz chunkCount totalSampleCount samples chunks =>
    ∃ call, backend.streamFn = some call ∧
      (call.rest sampleRateHz chunkCount totalSampleCount (samples :: chunks)).after said = script
  | .emitResult result => (result.script maxBufferBytes).after said = script
  | .readFrames emission sequenceNumber firstSample frames =>
    (emission.rest sequenceNumber firstSample frames).after said = script
  | .emitFrames emission sequenceNumber firstSample pcm frames =>
    ((emission.rest (sequenceNumber + 1) (firstSample + pcm.length / emission.frameBytes) frames).after
      [.audio pcm]).after said = script
  | .release (some outcome) => (Script.ending outcome).after said = script
  | .handle (.complete result _) | .handle (.combineMetrics result _)
  | .handle (.finish (some (.completed result)) none) => (Script.ending (.ok result)).after said = script
  | .handle (.fail error) | .handle (.finish none (some error)) => (Script.ending (.error error)).after said = script
  | .release none | .handle (.finish ..) | .handle (.emitStarted ..) | .handle (.emitAudio _)
  | .handle .readEvent => False
  | _ => True

/-- A worker that has met an exception, or somebody who fails the handle. -/
def SynthesisTask.givesUp : SynthesisTask → Bool
  | .release none | .release (some (.error _)) | .handle (.fail _) | .handle (.finish none (some _)) => true
  | _ => false

/-- The calls of the model raise nothing. -/
def Backend.Yields (backend : Backend) : Prop := ∀ call, backend.streamFn = some call → call.raises = none

/-- Nothing stops this step of a worker. -/
structure SynthesisTask.Unstopped (backend : Backend) (s : SynthesisState) (input : SynthesisInput)
    (task : SynthesisTask) : Prop where
  uncancelled : s.handle.cancelled = false
  opened : s.handle.terminal = false
  remaining : 0 < input.remaining
  fits : ¬ task.Oversize s
  yields : backend.Yields

theorem NanoVLLMCall.raises_eq_none {call : NanoVLLMCall} :
    call.raises = none ↔ (if call.referenceWav then call.encodeLatents else none) = none ∧ call.generate = none ∧
      ∀ error ∈ call.ending, ∃ message, error = .stopAsyncIteration message := by
  unfold raises
  cases hencode : (if call.referenceWav then call.encodeLatents else none) with
  | some error => simp
  | none =>
    cases hgenerate : call.generate with
    | some error => simp
    | none =>
      cases hending : call.ending with
      | none => simp
      | some error => cases error <;> simp

namespace SynthesisState

open SynthesisTask

variable {backend : Backend} {script : Script} {maxBufferBytes : ℕ} {s : SynthesisState} {task task' : SynthesisTask}
  {input : SynthesisInput} {e : Step} {others : Multiset SynthesisTask}

/-- What the stream has told of its sound. -/
def said (s : SynthesisState) : List Sound := sounds s.delivery.appended

theorem said_perform (s : SynthesisState) (op : StreamOp) :
    (s.perform op).said = s.said ++ sounds (s.handle.appends op) := sounds_append _ _

/-- The next tasks keep to the script, or give up for a reason. -/
def Keeps (backend : Backend) (script : Script) (s : SynthesisState) (task : SynthesisTask) (input : SynthesisInput)
    (e : Step) : Prop :=
  ∀ t ∈ e.next, t.Plays backend script s.handle.maxBufferBytes e.state.said ∨
    t.givesUp = true ∧ ¬ task.Unstopped backend s input

theorem keeps_on {s' : SynthesisState} (hsaid : s'.said = s.said)
    (h : task'.Plays backend script s.handle.maxBufferBytes s.said) :
    Keeps backend script s task input { state := s', next := [task'] } :=
  List.forall_mem_singleton.mpr (.inl (hsaid ▸ h))

theorem keeps_unlessCancelled {message : String} (h : task'.Plays backend script s.handle.maxBufferBytes s.said) :
    Keeps backend script s task input (s.unlessCancelled message task') := by
  unfold Keeps
  simp only [unlessCancelled]
  split_ifs with hcancelled
  · refine List.forall_mem_singleton.mpr (.inr ⟨rfl, fun hfree => ?_⟩)
    rw [hfree.uncancelled] at hcancelled
    cases hcancelled
  · exact List.forall_mem_singleton.mpr (.inl h)

theorem keeps_callServer {call : ModelCall} {raises : Option LibraryError}
    (hraises : ∀ error, raises = some error → ¬ backend.Yields)
    (h : task'.Plays backend script s.handle.maxBufferBytes s.said) :
    Keeps backend script s task input (s.callServer call raises task') := by
  cases raises with
  | none => exact keeps_on rfl h
  | some error =>
    refine List.forall_mem_singleton.mpr (.inr ⟨?_, fun hfree => hraises error rfl hfree.yields⟩)
    cases error.throughLoop <;> rfl

theorem keeps_proceed {α : Type} {s' : SynthesisState} {value : Except EngineError α} {next : α → SynthesisTask}
    (hsaid : s'.said = s.said) (herror : ∀ error, value = .error error →
      (Script.ending (.error error)).after s.said = script)
    (h : ∀ a, value = .ok a → (next a).Plays backend script s.handle.maxBufferBytes s.said) :
    Keeps backend script s task input (s'.proceed value next) := by
  cases value with
  | error error => exact keeps_on hsaid (herror error rfl)
  | ok a => exact keeps_on hsaid (h a rfl)

theorem keeps_emitStarted {sampleRateHz channelCount : ℤ}
    (h : task'.Plays backend script s.handle.maxBufferBytes (s.said ++ [.started sampleRateHz])) :
    Keeps backend script s task input (s.emitStarted sampleRateHz channelCount task') := by
  unfold Keeps
  simp only [SynthesisState.emitStarted]
  rcases s.handle.emitStarted_cases sampleRateHz channelCount with ⟨-, -, heq⟩ | ⟨error, hstop, heq⟩
  · rw [said_perform]
    simp only [appends, heq]
    exact List.forall_mem_singleton.mpr (.inl h)
  · rw [heq]
    refine List.forall_mem_singleton.mpr (.inr ⟨rfl, fun hfree => ?_⟩)
    rw [SynthesisHandle.raiseIfStopped_eq_none.mpr ⟨hfree.uncancelled, hfree.opened⟩] at hstop
    cases hstop

/-- A look at the buffer raises for one of three reasons. -/
theorem emitAudio_error {handle : SynthesisHandle} {event : StreamAudioChunk} {remaining : ℚ} {error : EngineError}
    (h : handle.emitAudio event remaining = .error error) (hcancelled : handle.cancelled = false)
    (hopen : handle.terminal = false) (hremaining : 0 < remaining) :
    handle.maxBufferBytes < event.pcm.length := by
  unfold SynthesisHandle.emitAudio at h
  rw [SynthesisHandle.raiseIfStopped_eq_none.mpr ⟨hcancelled, hopen⟩] at h
  split_ifs at h with hsize hfull hlate
  · exact hsize
  · exact absurd hlate hremaining.not_ge

theorem keeps_emitAudio {event : StreamAudioChunk} {again : SynthesisTask}
    (hover : s.handle.maxBufferBytes < event.pcm.length → task.Oversize s)
    (hagain : again.Plays backend script s.handle.maxBufferBytes s.said)
    (h : task'.Plays backend script s.handle.maxBufferBytes (s.said ++ [.audio event.pcm])) :
    Keeps backend script s task input (s.emitAudio event input.remaining again task') := by
  unfold Keeps
  simp only [SynthesisState.emitAudio]
  rw [said_perform]
  cases hemit : s.handle.emitAudio event input.remaining with
  | error error =>
    refine List.forall_mem_singleton.mpr (.inr ⟨rfl, fun hfree => ?_⟩)
    exact hfree.fits (hover (emitAudio_error hemit hfree.uncancelled hfree.opened hfree.remaining))
  | ok handle =>
    cases handle with
    | none =>
      simp only [appends, hemit, sounds, List.filterMap_nil, List.append_nil]
      exact List.forall_mem_singleton.mpr (.inl hagain)
    | some handle =>
      simp only [appends, hemit]
      exact List.forall_mem_singleton.mpr (.inl h)

/-- The methods of the handle. -/
theorem keeps_runHandle {task : StreamTask} (h : s.runHandle task input.remaining = some e)
    (hplays : (SynthesisTask.handle task).Plays backend script s.handle.maxBufferBytes s.said) :
    Keeps backend script s (.handle task) input e := by
  obtain ⟨e', hrun, rfl⟩ := Option.map_eq_some_iff.mp h
  have htrivial : (∀ t ∈ e'.next, ∀ said, (SynthesisTask.handle t).Plays backend script
      s.handle.maxBufferBytes said) → Keeps backend script s (.handle task) input
        { state := { s with stream := e'.state }, next := e'.next.map .handle } := by
    intro hnext t hmem
    obtain ⟨t', hmem', rfl⟩ := List.mem_map.mp hmem
    exact .inl (hnext t' hmem' _)
  cases task with
  | complete result metrics =>
    cases hrun
    unfold Keeps
    simp only [StreamState.complete]
    split_ifs with hcancelled
    · refine List.forall_mem_singleton.mpr (.inr ⟨rfl, fun hfree => ?_⟩)
      cases hfree.uncancelled.symm.trans hcancelled
    · exact List.forall_mem_singleton.mpr (.inl hplays)
  | combineMetrics result metrics =>
    cases hrun
    exact List.forall_mem_singleton.mpr (.inl hplays)
  | fail error =>
    cases hrun
    exact List.forall_mem_singleton.mpr (.inl hplays)
  | addTerminalCallback callback =>
    cases hrun
    refine htrivial fun t hmem said => ?_
    simp only [StreamState.addTerminalCallback] at hmem
    split_ifs at hmem
    · rw [List.mem_singleton.mp hmem]
      trivial
    · cases hmem
  | finish event error =>
    cases hrun
    exact htrivial (List.forall_mem_singleton.mpr fun _ => trivial)
  | runTerminalCallbacks callbacks =>
    cases callbacks <;> cases hrun
    · exact List.forall_mem_nil _
    · exact List.forall_mem_singleton.mpr (.inl trivial)
  | emitStarted sampleRateHz channelCount => exact hplays.elim
  | emitAudio event => exact hplays.elim
  | readEvent => exact hplays.elim
  | _ => cases hrun; exact List.forall_mem_nil _

/-- The handler plays no part. -/
theorem plays_of_handles {maxBufferBytes : ℕ} {said : List Sound} (hhandles : task.handles = true) :
    task.Plays backend script maxBufferBytes said := by
  cases task <;> trivial

/-- The runtime's own function. -/
theorem keeps_runBackend
    (hplays : SynthesisTask.runBackend.Plays backend script s.handle.maxBufferBytes s.said) :
    Keeps backend script s task input (s.runBackend backend) := by
  cases backend with
  | nanovllm call =>
    refine keeps_proceed rfl (fun error herror => ?_) fun sampleRateHz hrate => ⟨call, rfl, ?_⟩
    · simpa only [SynthesisTask.Plays, Backend.script, herror] using hplays
    · simpa only [SynthesisTask.Plays, Backend.script, hrate] using hplays
  | voxcpm2 call =>
    refine keeps_proceed rfl (fun error herror => ?_) fun result hresult => ?_
    · simpa only [SynthesisTask.Plays, Backend.script, herror, completeScript] using hplays
    · simpa only [SynthesisTask.Plays, Backend.script, hresult, completeScript] using hplays
  | kokoro call =>
    refine keeps_proceed rfl (fun error herror => ?_) fun result hresult => ?_
    · simpa only [SynthesisTask.Plays, Backend.script, herror, completeScript] using hplays
    · simpa only [SynthesisTask.Plays, Backend.script, hresult, completeScript] using hplays
  | completeOnly result =>
    refine keeps_proceed rfl (fun error herror => ?_) fun result hresult => ?_
    · simpa only [SynthesisTask.Plays, Backend.script, herror, completeScript] using hplays
    · simpa only [SynthesisTask.Plays, Backend.script, hresult, completeScript] using hplays

/-! NanoVLLM's calls of its server, and its chunks. -/

theorem keeps_encodeLatents {sampleRateHz : ℤ}
    (h : SynthesisState.run backend s (.encodeLatents sampleRateHz) input = some e)
    (hplays : (SynthesisTask.encodeLatents sampleRateHz).Plays backend script s.handle.maxBufferBytes s.said) :
    Keeps backend script s (.encodeLatents sampleRateHz) input e := by
  obtain ⟨call, hcall, rfl⟩ := Option.map_eq_some_iff.mp h
  refine keeps_callServer (fun error hraises hyields => ?_) hplays
  rw [(NanoVLLMCall.raises_eq_none.mp (hyields call hcall)).1] at hraises
  cases hraises

theorem keeps_generate {sampleRateHz : ℤ} (h : SynthesisState.run backend s (.generate sampleRateHz) input = some e)
    (hplays : (SynthesisTask.generate sampleRateHz).Plays backend script s.handle.maxBufferBytes s.said) :
    Keeps backend script s (.generate sampleRateHz) input e := by
  obtain ⟨call, hcall, rfl⟩ := Option.map_eq_some_iff.mp h
  obtain ⟨call', hcall', hscript⟩ := hplays
  obtain rfl := Option.some.inj (hcall.symm.trans hcall')
  refine keeps_callServer (fun error hraises hyields => ?_) ⟨call, hcall, hscript⟩
  rw [(NanoVLLMCall.raises_eq_none.mp (hyields call hcall)).2.1] at hraises
  cases hraises

theorem keeps_nextChunk {sampleRateHz : ℤ} {chunkCount totalSampleCount : ℕ} {chunks : List (List ℚ)}
    (h : SynthesisState.run backend s (.nextChunk sampleRateHz chunkCount totalSampleCount chunks) input = some e)
    (hplays : (SynthesisTask.nextChunk sampleRateHz chunkCount totalSampleCount chunks).Plays backend script
      s.handle.maxBufferBytes s.said) :
    Keeps backend script s (.nextChunk sampleRateHz chunkCount totalSampleCount chunks) input e := by
  obtain ⟨call, hcall, rfl⟩ := Option.map_eq_some_iff.mp h
  obtain ⟨call', hcall', hscript⟩ := hplays
  obtain rfl := Option.some.inj (hcall.symm.trans hcall')
  cases chunks with
  | cons samples chunks => exact keeps_on rfl ⟨call, hcall, hscript⟩
  | nil =>
    simp only [SynthesisState.nextChunk]
    split
    · exact keeps_on rfl hscript
    · rename_i hending
      refine keeps_callServer (fun error hraises hyields => ?_) hscript
      obtain ⟨message, rfl⟩ := (NanoVLLMCall.raises_eq_none.mp (hyields call hcall)).2.2 error hraises
      exact hending message hraises

theorem keeps_chunkSink {sampleRateHz : ℤ} {chunkCount totalSampleCount : ℕ} {samples : List ℚ}
    {chunks : List (List ℚ)}
    (h : SynthesisState.run backend s (.chunkSink sampleRateHz chunkCount totalSampleCount samples chunks) input =
      some e)
    (hplays : (SynthesisTask.chunkSink sampleRateHz chunkCount totalSampleCount samples chunks).Plays backend script
      s.handle.maxBufferBytes s.said) :
    Keeps backend script s (.chunkSink sampleRateHz chunkCount totalSampleCount samples chunks) input e := by
  cases h
  obtain ⟨call, hcall, hscript⟩ := hplays
  refine keeps_emitAudio id ⟨call, hcall, hscript⟩ ⟨call, hcall, ?_⟩
  rw [← hscript]
  ext1
  · simp [Script.after, NanoVLLMCall.rest]
  · simp [Script.after, NanoVLLMCall.rest, Nat.add_assoc, Nat.add_comm 1]

/-! A complete result, opened and cut. -/

theorem keeps_emitResult {result : EngineResult}
    (hplays : (SynthesisTask.emitResult result).Plays backend script s.handle.maxBufferBytes s.said) :
    Keeps backend script s task input (s.emitResult result) := by
  simp only [SynthesisTask.Plays, EngineResult.script] at hplays
  simp only [SynthesisState.emitResult]
  cases hopen : openResult result s.handle.maxBufferBytes with
  | error error =>
    rw [hopen] at hplays
    exact keeps_on rfl hplays
  | ok opened =>
    rw [hopen] at hplays
    refine keeps_emitStarted ?_
    rwa [Script.after_after] at hplays

theorem keeps_readFrames {emission : WaveEmission} {sequenceNumber firstSample : ℕ} {frames : List UInt8}
    (hplays : (SynthesisTask.readFrames emission sequenceNumber firstSample frames).Plays backend script
      s.handle.maxBufferBytes s.said) :
    Keeps backend script s task input (s.readFrames emission sequenceNumber firstSample frames) := by
  simp only [SynthesisState.readFrames]
  simp only [SynthesisTask.Plays] at hplays
  split_ifs with hdone
  · refine keeps_on rfl ?_
    simpa [WaveEmission.rest, WaveEmission.pieces, pieces_of_nil hdone, SynthesisTask.Plays, Script.ending] using
      hplays
  · refine keeps_on rfl ?_
    rw [SynthesisTask.Plays, ← hplays]
    ext1
    · simp [Script.after, WaveEmission.rest, WaveEmission.pieces, pieces_of_ne hdone]
    · simp [Script.after, WaveEmission.rest, WaveEmission.pieces, pieces_of_ne hdone, Nat.add_assoc,
        Nat.add_comm 1]

/-- **A step keeps to the script, or gives up for a reason.** -/
theorem plays_of_run (h : SynthesisState.run backend s task input = some e)
    (hplays : task.Plays backend script s.handle.maxBufferBytes s.said) : Keeps backend script s task input e := by
  cases task with
  | handle task => exact keeps_runHandle h hplays
  | runJob queueWaitMs =>
    cases h
    exact keeps_on ((said_perform s _).trans (List.append_nil _)) hplays
  | runBackend => cases h; exact keeps_runBackend hplays
  | release outcome =>
    cases h
    rcases outcome with _ | error | result
    · exact hplays.elim
    · exact keeps_on rfl hplays
    · exact keeps_on rfl hplays
  | checkDispatch => cases h; exact keeps_unlessCancelled hplays
  | checkPrepared sampleRateHz => cases h; exact keeps_unlessCancelled hplays
  | checkGeneration sampleRateHz => cases h; exact keeps_unlessCancelled hplays
  | startedSink sampleRateHz =>
    cases h
    obtain ⟨call, hcall, hscript⟩ := hplays
    refine keeps_emitStarted ⟨call, hcall, ?_⟩
    rwa [NanoVLLMCall.script, Script.after_after] at hscript
  | encodeLatents sampleRateHz => exact keeps_encodeLatents h hplays
  | checkEncoded sampleRateHz => cases h; exact keeps_unlessCancelled hplays
  | generate sampleRateHz => exact keeps_generate h hplays
  | nextChunk sampleRateHz chunkCount totalSampleCount chunks => exact keeps_nextChunk h hplays
  | checkChunk sampleRateHz chunkCount totalSampleCount samples chunks =>
    cases h
    exact keeps_unlessCancelled hplays
  | chunkSink sampleRateHz chunkCount totalSampleCount samples chunks => exact keeps_chunkSink h hplays
  | emitResult result => cases h; exact keeps_emitResult hplays
  | readFrames emission sequenceNumber firstSample frames => cases h; exact keeps_readFrames hplays
  | emitFrames emission sequenceNumber firstSample pcm frames =>
    cases h
    refine keeps_emitAudio id hplays ?_
    rwa [SynthesisTask.Plays, Script.after_after] at hplays
  | _ => exact forall_handler h rfl (fun _ ht => .inl (plays_of_handles ht)) (.inl trivial) (.inl trivial)

/-! ### Under every interleaving -/

/-- Who has given up goes on to fail the handle, and no further. -/
theorem givesUp_of_run (h : SynthesisState.run backend s task input = some e) (hgives : task.givesUp = true) :
    ∀ t ∈ e.next, t.givesUp = true ∨ ∀ said, t.Plays backend script maxBufferBytes said := by
  cases task with
  | release outcome =>
    cases h
    rcases outcome with _ | error | result
    · exact List.forall_mem_nil _
    · exact List.forall_mem_singleton.mpr (.inl rfl)
    · cases hgives
  | handle task =>
    obtain ⟨e', hrun, rfl⟩ := Option.map_eq_some_iff.mp h
    cases task with
    | fail error =>
      cases hrun
      exact List.forall_mem_singleton.mpr (.inl rfl)
    | finish event error =>
      cases hrun
      exact List.forall_mem_singleton.mpr (.inr fun _ => trivial)
    | _ => cases hgives
  | _ => cases hgives

/-- Who may not append knows nothing of what is said. -/
theorem plays_of_idle {said said' : List Sound} (hidle : task.produces = false)
    (h : task.Plays backend script maxBufferBytes said) :
    task.givesUp = true ∨ task.Plays backend script maxBufferBytes said' := by
  cases task with
  | handle task =>
    cases task with
    | finish event error =>
      cases event with
      | some event => cases hidle
      | none =>
        cases error with
        | some error => exact .inl rfl
        | none => exact h.elim
    | fail error => exact .inl rfl
    | complete result metrics => cases hidle
    | combineMetrics result metrics => cases hidle
    | emitStarted sampleRateHz channelCount => exact h.elim
    | emitAudio event => exact h.elim
    | readEvent => exact h.elim
    | _ => exact .inr trivial
  | readEvent | returnEmpty | send | resume | clientCancelled | raiseCancelled | failRpc | classify | abort =>
    exact .inr trivial
  | _ => cases hidle

/-- What such a one appends tells nothing. -/
theorem sounds_of_idle {op : StreamOp} (hidle : task.produces = false ∨ task.givesUp = true)
    (h : task.givesUp = true ∨ task.Plays backend script maxBufferBytes s.said)
    (hop : task.streamOp s input = some op) : sounds (s.handle.appends op) = [] := by
  cases task with
  | handle task =>
    cases task with
    | finish event error =>
      cases hop
      rcases event with _ | event
      · simp [appends, sounds]
      · rcases hidle with hidle | hidle <;> cases hidle
    | emitStarted sampleRateHz channelCount =>
      rcases h with hgives | hplays
      · cases hgives
      · exact hplays.elim
    | emitAudio event =>
      rcases h with hgives | hplays
      · cases hgives
      · exact hplays.elim
    | _ => cases hop <;> rfl
  | readEvent =>
    simp only [streamOp] at hop
    split_ifs at hop
    cases hop
    rfl
  | release outcome => cases hop
  | returnEmpty | send | resume | clientCancelled | raiseCancelled | failRpc | classify | abort => cases hop
  | _ => rcases hidle with hidle | hidle <;> cases hidle

/-- A Completed event has the script before it. -/
structure Scripted (backend : Backend) (script : Script) (maxBufferBytes : ℕ) (s : SynthesisState)
    (bag : Multiset SynthesisTask) : Prop where
  bytes : s.handle.maxBufferBytes = maxBufferBytes
  tasks : ∀ task ∈ bag, task.givesUp = true ∨ task.Plays backend script maxBufferBytes s.said
  producer : bag.countP (·.produces = true) ≤ 1
  completed : ∀ completed, .completed completed ∈ s.delivery.appended →
    s.handle.terminal = true ∧ (Script.ending (.ok completed)).after s.said = script

theorem said_of_run (h : Stepped s task input e) :
    e.state.said = s.said ++ (task.streamOp s input).elim [] fun op => sounds (s.handle.appends op) := by
  rw [said, h.delivery]
  cases task.streamOp s input with
  | none => exact (List.append_nil _).symm
  | some op => exact said_perform s op

theorem bytes_of_run (h : Stepped s task input e) : e.state.handle.maxBufferBytes = s.handle.maxBufferBytes := by
  show e.state.delivery.handle.maxBufferBytes = _
  rw [h.delivery]
  cases task.streamOp s input with
  | none => rfl
  | some op => exact (s.handle.after_limits op).2

/-- A terminal stream is said no more to. -/
theorem terminal_of_run (h : Stepped s task input e) (hend : s.handle.terminal = true) :
    e.state.handle.terminal = true ∧ e.state.handle.error = s.handle.error ∧
      e.state.delivery.appended = s.delivery.appended := by
  show e.state.delivery.handle.terminal = true ∧ e.state.delivery.handle.error = _ ∧ _
  rw [h.delivery]
  cases task.streamOp s input with
  | none => exact ⟨hend, rfl, rfl⟩
  | some op =>
    obtain ⟨hterminal, herror, happended, -⟩ := (s.delivery.perform_later op).terminal hend
    exact ⟨hterminal, herror, happended⟩

/-- **The script, step by step.** -/
theorem Scripted.run (h : Scripted backend script maxBufferBytes s (task ::ₘ others))
    (hrun : SynthesisState.run backend s task input = some e) :
    Scripted backend script maxBufferBytes e.state (e.left + others) := by
  have hst := stepped_of_run hrun
  have htask := h.tasks task (Multiset.mem_cons_self ..)
  have hsaid := said_of_run hst
  refine ⟨(bytes_of_run hst).trans h.bytes, fun t hmem => ?_, (countP_step hst hst.produced).trans h.producer,
    fun completed hmem => ?_⟩
  · rw [Effect.left_of_next hst.spawned] at hmem
    rcases Multiset.mem_add.mp hmem with hmem | hmem
    · rcases htask with hgives | hplays
      · exact (givesUp_of_run hrun hgives t hmem).imp_right fun hall => hall _
      · obtain rfl := h.bytes
        rcases plays_of_run hrun hplays t hmem with hnext | ⟨hgives, -⟩
        · exact .inr hnext
        · exact .inl hgives
    · have hold := h.tasks t (Multiset.mem_cons_of_mem hmem)
      rcases hold with hgives | hplays
      · exact .inl hgives
      · cases hproduces : task.produces with
        | true => exact plays_of_idle (others_of_countP h.producer hproduces t hmem) hplays
        | false =>
          have hsame : e.state.said = s.said := by
            rw [hsaid]
            cases hop : task.streamOp s input with
            | none => exact List.append_nil _
            | some op => simp [sounds_of_idle (.inl hproduces) htask hop]
          exact .inr (hsame ▸ hplays)
  · by_cases hend : s.handle.terminal = true
    · obtain ⟨hterminal, -, happended⟩ := terminal_of_run hst hend
      rw [happended] at hmem
      rw [said, happended]
      exact ⟨hterminal, (h.completed completed hmem).2⟩
    · have hnew : .completed completed ∉ s.delivery.appended := fun hold => hend (h.completed completed hold).1
      rw [hst.delivery] at hmem
      cases hop : task.streamOp s input with
      | none =>
        rw [hop] at hmem
        exact absurd hmem hnew
      | some op =>
        rw [hop] at hmem
        rcases List.mem_append.mp hmem with hmem | hmem
        · exact absurd hmem hnew
        · obtain ⟨error, rfl⟩ := SynthesisHandle.mem_appends_completed hmem
          -- it is the worker's own, with the script behind it
          have hfinish : task = .handle (.finish (some (.completed completed)) error) := by
            cases task with
            | handle t => cases t <;> cases hop; rfl
            | emitResult result =>
              simp only [streamOp] at hop
              split at hop <;> cases hop
            | readEvent =>
              simp only [streamOp] at hop
              split_ifs at hop
              cases hop
            | _ => cases hop
          subst hfinish
          rcases htask with hgives | hplays
          · cases hgives
          · have hterminal : e.state.handle.terminal = true := by
              show e.state.delivery.handle.terminal = true
              rw [hst.delivery, hop]
              exact (SynthesisHandle.finish_spec _ _ _).1
            refine ⟨hterminal, ?_⟩
            have hsame : e.state.said = s.said := by
              rw [hsaid, hop]
              simp [appends, hend, sounds, StreamEvent.sound?]
            rw [hsame]
            cases error with
            | none => exact hplays
            | some error => exact hplays.elim

/-- What callers do to the handle is outside the script. -/
theorem Scripted.entry (h : Scripted backend script maxBufferBytes s others) (hentry : task.entry = true) :
    Scripted backend script maxBufferBytes s (task ::ₘ others) := by
  have hidle : task.produces = false ∧
      (task.givesUp = true ∨ task.Plays backend script maxBufferBytes s.said) := by
    cases task with
    | handle task =>
      cases task with
      | cancel | setCancelCallback => exact ⟨rfl, .inr trivial⟩
      | fail => exact ⟨rfl, .inl rfl⟩
      | _ => cases hentry
    | _ => cases hentry
  refine ⟨h.bytes, Multiset.forall_mem_cons.mpr ⟨hidle.2, h.tasks⟩, ?_, h.completed⟩
  rw [Multiset.countP_cons_of_neg _ (by simp [hidle.1])]
  exact h.producer

/-- Before the first step. -/
theorem start_scripted (backend : Backend) (handle : SynthesisHandle) (queueWaitMs receivedAt : ℚ) :
    Scripted backend (backend.script handle.maxBufferBytes) handle.maxBufferBytes
      (start handle queueWaitMs receivedAt).state (start handle queueWaitMs receivedAt).bag where
  bytes := rfl
  tasks := by
    show ∀ task ∈ ({SynthesisTask.runJob queueWaitMs, .readEvent} : Multiset SynthesisTask), _
    simp [SynthesisTask.Plays, start, said, sounds]
  producer := le_rfl
  completed := fun completed hmem => absurd hmem List.not_mem_nil

/-- **A Completed event ends the whole script**, and reports its count. -/
theorem runs_scripted (backend : Backend) (handle : SynthesisHandle) (queueWaitMs receivedAt : ℚ)
    (actions : List (Action SynthesisTask SynthesisInput)) :
    let s := ((synthesisProgram backend).runs (start handle queueWaitMs receivedAt) actions).state
    ∀ completed, .completed completed ∈ s.delivery.appended →
      s.said = (backend.script handle.maxBufferBytes).sounds ∧
        (backend.script handle.maxBufferBytes).outcome = .ok completed.totalSampleCount := by
  intro s completed hmem
  have h := Threads.Program.runs_of (p := synthesisProgram backend)
    (start_scripted backend handle queueWaitMs receivedAt)
    (fun _ _ _ hentry h => Scripted.entry h hentry) (fun _ _ _ _ _ hrun h => Scripted.run h hrun) actions
  obtain ⟨hsounds, houtcome⟩ := Script.ending_after_inj (h.completed completed hmem).2
  exact ⟨hsounds.symm, houtcome⟩

end SynthesisState
end TtsPool
